import NodeFencing.Proofs.Program.Exchange

/-!
# What a program has been told

A program knows of its site what it was told by the answers to its calls.  So it may be looked
at as a program on its own past, the list of its exchanges so far, which only ever grows.  Which
call it makes next may then be said in terms of this list; and since nothing is said of the
site itself, it holds on every site.

In a run of many programs each one has such a past.  What the others do in the meantime is a
change of the site, as what the site does by itself.

## Main Definitions

* `Conduct` — which calls a program may make, given what it has been told
* `Rules.amid` — a site with everything that other programs may do on it
* `Traffic.Recorded` — a run with the past of each program

## Main statements

* `Program.Keeps.recalled` — a program that keeps to its past, on any site
* `Traffic.Run.recorded` — every run can be recorded
* `Traffic.Recorded.goes` — one program of a run, with its past
-/

namespace NodeFencing

variable {I : Interface} {W α : Type}

/-! ### The past of a program -/

/-- Which calls a program may make, given what it has been told.  What is allowed once remains
so. -/
structure Conduct (I : Interface) (W : Type) where
  allows : List (Exchange I W) → I.Call → Prop
  mono : ∀ {past past' c}, past <+: past' → allows past c → allows past' c

/-- The contract of a program on its own past. -/
def Conduct.contract (C : Conduct I W) : Contract I (List (Exchange I W)) where
  holds _ := True
  evolves past past' := past <+: past'
  permits := C.allows
  reports past c a := ∃ before behind, ⟨before, c, a, behind⟩ ∈ past
  evolves_refl past := List.prefix_refl past
  evolves_trans := List.IsPrefix.trans
  permits_mono := C.mono

section Past

variable {R : Rules I α W} {C : Conduct I W} {past past' had : List (Exchange I W)}
  {w₀ w : W} {p₀ p : Program I α} {post : List (Exchange I W) → α → Prop}

/-- What was told is found in the past. -/
theorem Contract.Told.exchanged {c : I.Call} {a : I.Answer c} (h : C.contract.Told past past' c a) :
    ∃ before behind, ⟨before, c, a, behind⟩ ∈ past' := by
  obtain ⟨v, -, ⟨before, behind, hmem⟩, hlater⟩ := h
  exact ⟨before, behind, hlater.evolves.subset hmem⟩

/-- **A program that keeps to its past** makes calls only that are allowed after what it has been
told, whatever the site is like. -/
theorem Program.Keeps.recalled (hp : p₀.Keeps C.contract post past)
    (h : Goes R w₀ p₀ had w p) :
    p.Keeps C.contract post (past ++ had) ∧
      ∀ before x, before ++ [x] <+: had → C.allows (past ++ before) x.call := by
  induction h with
  | begun =>
      refine ⟨by rwa [List.append_nil], fun before x hx => ?_⟩
      simpa using List.prefix_nil.mp hx
  | @calls had w c next a w' h answered ih =>
      obtain ⟨hkeeps, hcalls⟩ := ih
      have longer : past ++ had <+: past ++ (had ++ [⟨w, c, a, w'⟩]) := by
        rw [← List.append_assoc]
        exact List.prefix_append _ _
      have told : ∃ before behind, (⟨before, c, a, behind⟩ : Exchange I W) ∈
          past ++ (had ++ [⟨w, c, a, w'⟩]) :=
        ⟨w, w', by simp⟩
      refine ⟨hkeeps.2 _ a ⟨longer, trivial⟩ told, fun before x hx => ?_⟩
      rcases List.prefix_concat_iff.mp hx with hnew | hold
      · obtain ⟨rfl, hlast⟩ := List.append_inj' hnew rfl
        obtain rfl := List.singleton_inj.mp hlast
        exact hkeeps.1
      · exact hcalls before x hold
  | pauses h ih => exact ih
  | looks h shown ih =>
      exact ⟨ih.1 _ _ ⟨List.prefix_refl _, trivial⟩ trivial, ih.2⟩
  | others h changed ih => exact ih

end Past

/-! ### One program of a run -/

/-- A site with everything that other programs may do on it. -/
def Rules.amid (R : Rules I α W) : Rules I α W where
  begins := R.begins
  answers := R.answers
  changes w w' := R.changes w w' ∨ ∃ c a, R.answers w c a w'
  shows := R.shows

namespace Traffic

/-- A run with the past of each program: all exchanges that it has had so far. -/
inductive Recorded (R : Rules I α W) (w : W) :
    Traffic I α W → (Nat → List (Exchange I W)) → Prop
  | quiet : Recorded R w (.quiet w) fun _ => []
  | begin {t past k p} (h : Recorded R w t past) (free : t.running k = none)
      (hb : R.begins t.site p) : Recorded R w (t.resume k t.site p) (Function.update past k [])
  | call {t past k c next a w'} (h : Recorded R w t past)
      (busy : t.running k = some (.call c next)) (answered : R.answers t.site c a w') :
      Recorded R w (t.resume k w' (next a))
        (Function.update past k (past k ++ [⟨t.site, c, a, w'⟩]))
  | pause {t past k d next} (h : Recorded R w t past)
      (busy : t.running k = some (.pause d next)) : Recorded R w (t.resume k t.site next) past
  | clock {t past k next now} (h : Recorded R w t past)
      (busy : t.running k = some (.clock next)) (shown : R.shows t.site now) :
      Recorded R w (t.resume k t.site (next now)) past
  | change {t past w'} (h : Recorded R w t past) (changed : R.changes t.site w') :
      Recorded R w { t with site := w' } past

variable {R : Rules I α W} {w : W} {t : Traffic I α W} {past : Nat → List (Exchange I W)} {k : Nat}
  {p : Program I α}

/-- Every run can be recorded. -/
theorem Run.recorded (h : Run R (.quiet w) t) : ∃ past, Recorded R w t past := by
  induction h with
  | refl => exact ⟨_, .quiet⟩
  | tail _ hs ih =>
      obtain ⟨past, hrec⟩ := ih
      cases hs with
      | begin free hb => exact ⟨_, hrec.begin free hb⟩
      | advance busy hm =>
          cases hm with
          | call answered => exact ⟨_, hrec.call busy answered⟩
          | pause => exact ⟨past, hrec.pause busy⟩
          | clock shown => exact ⟨past, hrec.clock busy shown⟩
      | change hc => exact ⟨past, hrec.change hc⟩

namespace Recorded

theorem run (h : Recorded R w t past) : Run R (.quiet w) t := by
  induction h with
  | quiet => exact .refl
  | begin _ free hb ih => exact ih.tail (.begin free hb)
  | call _ busy answered ih => exact ih.tail (.advance busy (.call answered))
  | pause _ busy ih => exact ih.tail (.advance busy .pause)
  | clock _ busy shown ih => exact ih.tail (.advance busy (.clock shown))
  | change _ changed ih => exact ih.tail (.change changed)

/-- After a step of one program, each is the one that has gone on or stands where it stood. -/
theorem resumed {j : Nat} {w' : W} {q : Program I α}
    (h : (t.resume j w' q).running k = some p) :
    (k = j ∧ q = p) ∨ (k ≠ j ∧ t.running k = some p) := by
  by_cases hj : k = j
  · subst hj
    exact .inl ⟨rfl, Option.some.inj ((Function.update_self k _ _).symm.trans h)⟩
  · exact .inr ⟨hj, (Function.update_of_ne hj _ _).symm.trans h⟩

/-- **One program of a run** was begun on some site, and goes its way among the others. -/
theorem goes (h : Recorded R w t past) (busy : t.running k = some p) :
    ∃ w₀ p₀, R.begins w₀ p₀ ∧ Program.Goes R.amid w₀ p₀ (past k) t.site p := by
  -- A program that stands still meets what another one does as a change of the site.
  induction h generalizing p with
  | quiet => cases busy
  | begin h free hb ih =>
      obtain ⟨rfl, rfl⟩ | ⟨hj, hold⟩ := resumed busy
      · exact ⟨_, _, hb, by rw [Function.update_self]; exact .begun⟩
      · rw [Function.update_of_ne hj]
        exact ih hold
  | @call t past j c next a w' h busy' answered ih =>
      obtain ⟨rfl, rfl⟩ | ⟨hj, hold⟩ := resumed busy
      · obtain ⟨w₀, p₀, hbegins, hgoes⟩ := ih busy'
        exact ⟨w₀, p₀, hbegins, by rw [Function.update_self]; exact hgoes.calls answered⟩
      · obtain ⟨w₀, p₀, hbegins, hgoes⟩ := ih hold
        rw [Function.update_of_ne hj]
        exact ⟨w₀, p₀, hbegins, hgoes.others (.inr ⟨c, a, answered⟩)⟩
  | pause h busy' ih =>
      obtain ⟨rfl, rfl⟩ | ⟨-, hold⟩ := resumed busy
      · obtain ⟨w₀, p₀, hbegins, hgoes⟩ := ih busy'
        exact ⟨w₀, p₀, hbegins, hgoes.pauses⟩
      · exact ih hold
  | clock h busy' shown ih =>
      obtain ⟨rfl, rfl⟩ | ⟨-, hold⟩ := resumed busy
      · obtain ⟨w₀, p₀, hbegins, hgoes⟩ := ih busy'
        exact ⟨w₀, p₀, hbegins, hgoes.looks shown⟩
      · exact ih hold
  | change h changed ih =>
      obtain ⟨w₀, p₀, hbegins, hgoes⟩ := ih busy
      exact ⟨w₀, p₀, hbegins, hgoes.others (.inl changed)⟩

end Recorded

end Traffic

end NodeFencing
