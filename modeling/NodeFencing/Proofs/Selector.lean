import Mathlib.Data.List.TakeDrop
import NodeFencing.Selector

/-!
# Selectors as text

The text of a selector is read back as this selector, as long as no key holds a sign that
the form of the text needs: a comma, or a sign of equality.  A value may hold a sign of
equality, but no comma.

## Main Definitions

* `Selector.Plain` — a selector that can be told from its text

## Main statements

* `Selector.ofText_text` — the text of such a selector is read back
-/

namespace NodeFencing.Selector

/-- A selector whose keys and values hold no sign that the form of the text needs. -/
def Plain (s : Selector) : Prop :=
  ∀ e ∈ s, ',' ∉ e.1.toList ∧ '=' ∉ e.1.toList ∧ ',' ∉ e.2.toList

/-- The text of an equation. -/
def equationText (e : String × String) : List Char :=
  e.1.toList ++ '=' :: e.2.toList

theorem toList_text (s : Selector) :
    s.text.toList = [','].intercalate (s.map equationText) := by
  unfold text
  rw [String.toList_intercalate, List.map_map]
  refine congrArg [','].intercalate (List.map_congr_left fun e _ => ?_)
  simp [equationText]

/-- What stands before the first sign of equality is the key. -/
theorem equation_equationText {e : String × String} (h : '=' ∉ e.1.toList) :
    equation (equationText e) = e := by
  have before : ∀ c ∈ e.1.toList, (c != '=') = true := by
    intro c hc
    simpa using ne_of_mem_of_not_mem hc h
  unfold equation equationText
  rw [List.span_eq_takeWhile_dropWhile, List.takeWhile_append_of_pos before,
    List.dropWhile_append_of_pos before]
  simp

variable {s : Selector}

theorem Plain.comma_notMem (h : s.Plain) : ∀ t ∈ s.map equationText, ',' ∉ t := by
  intro t ht
  obtain ⟨e, he, rfl⟩ := List.mem_map.mp ht
  obtain ⟨hkey, -, hvalue⟩ := h e he
  simp [equationText, hkey, hvalue]

/-- A selector that asks for something has a text. -/
theorem text_ne_empty (hs : s ≠ []) : s.text ≠ "" := by
  obtain ⟨e, rest, rfl⟩ := List.exists_cons_of_ne_nil hs
  intro h
  have chars := toList_text (e :: rest)
  rw [h, List.map_cons, equationText] at chars
  cases rest with
  | nil => simp at chars
  | cons e' rest => simp at chars

/-- **The text of a selector is read back**: neither a key nor a value breaks it. -/
theorem ofText_text (h : s.Plain) : ofText s.text = s := by
  by_cases hs : s = []
  · subst hs
    rfl
  · have pieces : s.text.toList.splitOn ',' = s.map equationText := by
      rw [toList_text]
      exact List.splitOn_intercalate ',' h.comma_notMem (by simpa using hs)
    have filled : ¬ s.text.isEmpty = true := by
      rw [String.isEmpty_iff]
      exact text_ne_empty hs
    unfold ofText
    rw [if_neg filled, pieces, List.map_map]
    calc s.map (equation ∘ equationText)
        = s.map id := List.map_congr_left fun e he => equation_equationText (h e he).2.1
      _ = s := List.map_id s

end NodeFencing.Selector
