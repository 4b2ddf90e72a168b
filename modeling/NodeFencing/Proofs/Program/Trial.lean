import NodeFencing.TaskError

/-!
# What a program does from its beginning to its end

With all answers and all readings of the clock given, a program goes one way: it makes its
calls, pauses and looks at the clock in some order, and comes to a result.  Such a way is
written down as the list of its acts.  The acts of two programs one behind the other are
those of the first and then those of the second.

## Main Definitions

* `Act` — what a program does in one step, with what it is told
* `Program.Performs` — a program does some acts and comes to a result
* `Program.Trial` — one way of a program from its beginning to its end

## Main statements

* `Program.performs_bind_iff` — the acts of one program behind another
* `Task.performs_bind_iff` — the same if the first may fail
-/

namespace NodeFencing

variable {I : Interface} {α β : Type}

/-- What a program does in one step, with what it is told. -/
inductive Act (I : Interface) where
  | call (c : I.Call) (answer : I.Answer c)
  | pause (d : Duration)
  | clock (now : Instant)

namespace Program

/-- A program does some acts, one after the other, and comes to a result. -/
inductive Performs : Program I α → List (Act I) → α → Prop
  | done {a} : Performs (done a) [] a
  | call {c next answer acts a} (h : Performs (next answer) acts a) :
      Performs (call c next) (.call c answer :: acts) a
  | pause {d next acts a} (h : Performs next acts a) :
      Performs (pause d next) (.pause d :: acts) a
  | clock {next now acts a} (h : Performs (next now) acts a) :
      Performs (clock next) (.clock now :: acts) a

/-- One way of a program from its beginning to its end. -/
structure Trial (p : Program I α) where
  acts : List (Act I)
  result : α
  performs : p.Performs acts result

variable {p : Program I α} {f : α → Program I β} {acts behind : List (Act I)} {a b : α}

theorem performs_done_iff : (done a : Program I α).Performs acts b ↔ acts = [] ∧ b = a := by
  constructor
  · rintro ⟨⟩
    exact ⟨rfl, rfl⟩
  · rintro ⟨rfl, rfl⟩
    exact .done

theorem performs_pause_iff {d : Duration} :
    (pause d p).Performs acts b ↔ ∃ rest, acts = .pause d :: rest ∧ p.Performs rest b := by
  constructor
  · rintro (_ | _ | h)
    exact ⟨_, rfl, h⟩
  · rintro ⟨rest, rfl, h⟩
    exact .pause h

/-- One call, with its answer as the result. -/
theorem performs_ask {c : I.Call} (answer : I.Answer c) :
    (ask c).Performs [.call c answer] answer :=
  .call .done

theorem performs_ask_iff {c : I.Call} {answer : I.Answer c} :
    (ask c).Performs acts answer ↔ acts = [.call c answer] := by
  constructor
  · rintro (_ | ⟨⟨⟩⟩)
    rfl
  · rintro rfl
    exact performs_ask answer

theorem Performs.bind {result : β} (h : p.Performs acts a) (hf : (f a).Performs behind result) :
    (p.bind f).Performs (acts ++ behind) result := by
  induction h with
  | done => exact hf
  | call _ ih => exact .call (ih hf)
  | pause _ ih => exact .pause (ih hf)
  | clock _ ih => exact .clock (ih hf)

/-- **One program behind another** does what the first does, and then what the second does. -/
theorem performs_bind_iff {result : β} : (p.bind f).Performs acts result ↔
    ∃ before a behind, acts = before ++ behind ∧ p.Performs before a ∧
      (f a).Performs behind result := by
  constructor
  · intro h
    induction p generalizing acts with
    | done a => exact ⟨[], a, acts, rfl, .done, h⟩
    | call c next ih =>
        obtain _ | @⟨_, _, answer, _, _, hnext⟩ := h
        obtain ⟨before, a, behind, rfl, hp, hf⟩ := ih answer hnext
        exact ⟨_ :: before, a, behind, rfl, .call hp, hf⟩
    | pause d next ih =>
        obtain _ | _ | hnext := h
        obtain ⟨before, a, behind, rfl, hp, hf⟩ := ih hnext
        exact ⟨_ :: before, a, behind, rfl, .pause hp, hf⟩
    | clock next ih =>
        obtain _ | _ | _ | @⟨_, now, _, _, hnext⟩ := h
        obtain ⟨before, a, behind, rfl, hp, hf⟩ := ih now hnext
        exact ⟨_ :: before, a, behind, rfl, .clock hp, hf⟩
  · rintro ⟨before, a, behind, rfl, hp, hf⟩
    exact hp.bind hf

end Program

/-- **One task behind another.**  If the first fails, the second is not begun. -/
theorem Task.performs_bind_iff {t : Task I α} {f : α → Task I β} {acts : List (Act I)}
    {result : Except TaskError β} : (t >>= f).run.Performs acts result ↔
      (∃ before a behind, acts = before ++ behind ∧ t.run.Performs before (.ok a) ∧
        (f a).run.Performs behind result) ∨
      ∃ e, t.run.Performs acts (.error e) ∧ result = .error e := by
  constructor
  · intro h
    obtain ⟨before, r, behind, rfl, ht, hf⟩ := Program.performs_bind_iff.mp h
    cases r with
    | ok a => exact .inl ⟨before, a, behind, rfl, ht, hf⟩
    | error e =>
        obtain ⟨rfl, rfl⟩ := Program.performs_done_iff.mp hf
        exact .inr ⟨e, (List.append_nil before).symm ▸ ht, rfl⟩
  · rintro (⟨before, a, behind, rfl, ht, hf⟩ | ⟨e, ht, rfl⟩)
    · exact Program.performs_bind_iff.mpr ⟨before, _, behind, rfl, ht, hf⟩
    · exact Program.performs_bind_iff.mpr ⟨acts, _, [], (List.append_nil acts).symm, ht, .done⟩

end NodeFencing
