import Mathlib.Logic.Function.Basic
import Mathlib.Logic.Relation
import NodeFencing.Proofs.Program.Contract

/-!
# Programs side by side

Several programs work on the same site.  In one step one of them goes on by one call, or
a new one is begun, or the site changes without any of them.  Nothing is said about the
order of the steps, about how long they take, or about whether a program ever goes on: a
program that is cut short simply has no further steps.

If the site binds itself to a contract and every program that is begun keeps it, then
what the contract says of the site holds in every state that can be reached.

## Main Definitions

* `Rules` — how a site answers calls, how it changes by itself, and what is begun on it
* `Program.Moves` — one step of one program
* `Traffic`, `Traffic.Step` — programs that work on a site, and one step of all
* `Contract.Binds` — a site that keeps its side of a contract

## Main statements

* `Program.Keeps.moves` — one step of a program that keeps its contract
* `Traffic.Orderly.step`, `Traffic.Orderly.run` — what all of them do together
* `Traffic.Orderly.maintains` — what each call keeps is so at the end of a run
* `Traffic.Orderly.follow` — what one of them does among the others
-/

namespace NodeFencing

variable {I : Interface} {W α : Type}

/-- How a site with states of type `W` meets the programs that work on it. -/
structure Rules (I : Interface) (α W : Type) where
  /-- The programs that may be begun. -/
  begins : W → Program I α → Prop
  /-- The answers to a call, each with the site afterwards. -/
  answers : W → (c : I.Call) → I.Answer c → W → Prop
  /-- How the site may change when no program does anything. -/
  changes : W → W → Prop
  /-- What the clock may show. -/
  shows : W → Instant → Prop := fun _ _ => True

/-- One step of one program on a site. -/
inductive Program.Moves (R : Rules I α W) : W × Program I α → W × Program I α → Prop
  | call {w w' c a next} (h : R.answers w c a w') : Moves R (w, .call c next) (w', next a)
  | pause {w d next} : Moves R (w, .pause d next) (w, next)
  | clock {w next now} (h : R.shows w now) : Moves R (w, .clock next) (w, next now)

/-- A site with the programs that work on it, told apart by numbers. -/
structure Traffic (I : Interface) (α W : Type) where
  site : W
  running : Nat → Option (Program I α)

namespace Traffic

/-- A site on which nobody works. -/
def quiet (w : W) : Traffic I α W where
  site := w
  running := fun _ => none

/-- One program goes on, and leaves the site in some state. -/
def resume (t : Traffic I α W) (k : Nat) (w : W) (p : Program I α) : Traffic I α W where
  site := w
  running := Function.update t.running k (some p)

/-- One step of all that happens on a site. -/
inductive Step (R : Rules I α W) : Traffic I α W → Traffic I α W → Prop
  | begin {t k p} (free : t.running k = none) (h : R.begins t.site p) :
      Step R t (t.resume k t.site p)
  | advance {t k p w' p'} (busy : t.running k = some p)
      (h : Program.Moves R (t.site, p) (w', p')) : Step R t (t.resume k w' p')
  | change {t : Traffic I α W} {w'} (h : R.changes t.site w') : Step R t { t with site := w' }

/-- Any number of steps. -/
abbrev Run (R : Rules I α W) : Traffic I α W → Traffic I α W → Prop :=
  Relation.ReflTransGen (Step R)

variable {R : Rules I α W}

/-- A run goes on with what one program does, while the others do nothing. -/
theorem Run.moves {t₀ t : Traffic I α W} {k : Nat} {p p' : Program I α} {w' : W}
    (h₀ : Run R t₀ t) (busy : t.running k = some p)
    (h : Relation.ReflTransGen (Program.Moves R) (t.site, p) (w', p')) :
    ∃ t', Run R t₀ t' ∧ t'.site = w' ∧ t'.running = Function.update t.running k (some p') := by
  generalize hend : (w', p') = last at h
  induction h generalizing w' p' with
  | refl =>
      obtain ⟨rfl, rfl⟩ := Prod.mk.inj hend
      exact ⟨t, h₀, rfl, by rw [← busy, Function.update_eq_self]⟩
  | @tail b _ _ hlast ih =>
      obtain ⟨w₁, p₁⟩ := b
      obtain ⟨t₁, hrun, rfl, hrunning⟩ := ih rfl
      subst hend
      have busy₁ : t₁.running k = some p₁ := by simp [hrunning]
      exact ⟨t₁.resume k w' p', hrun.tail (.advance busy₁ hlast), rfl, by simp [resume, hrunning]⟩

/-- A run goes on with a program that is begun, while the others do nothing. -/
theorem Run.begins {t₀ t : Traffic I α W} (k : Nat) {p p' : Program I α} {w' : W}
    (h₀ : Run R t₀ t) (free : t.running k = none) (hb : R.begins t.site p)
    (h : Relation.ReflTransGen (Program.Moves R) (t.site, p) (w', p')) :
    ∃ t', Run R t₀ t' ∧ t'.site = w' ∧ t'.running = Function.update t.running k (some p') := by
  have begun : Run R t₀ (t.resume k t.site p) := h₀.tail (.begin free hb)
  have busy : (t.resume k t.site p).running k = some p := by simp [resume]
  obtain ⟨t', hrun, hsite, hrunning⟩ := begun.moves busy h
  exact ⟨t', hrun, hsite, by simpa [resume] using hrunning⟩

end Traffic

/-! ### Contracts with several programs -/

/-- A site keeps its side of a contract, and only programs that keep theirs are begun. -/
structure Contract.Binds (K : Contract I W) (post : W → α → Prop) (R : Rules I α W) : Prop where
  stable : K.Stable post
  begins : ∀ {w p}, K.holds w → R.begins w p → p.Keeps K post w
  answers : ∀ {w c a w'}, K.holds w → K.permits w c → R.answers w c a w' →
    K.Leads w w' ∧ K.reports w' c a
  changes : ∀ {w w'}, K.holds w → R.changes w w' → K.Leads w w'
  shows : ∀ {w now}, R.shows w now → K.shows w now

/-- A program that keeps its contract leads to a site within the promises, and goes on to keep it,
whatever is said about its result besides. -/
theorem Program.Keeps.moves {K : Contract I W} {common post : W → α → Prop} {R : Rules I α W}
    (binds : K.Binds common R) {w w' : W} {p p' : Program I α} (hw : K.holds w)
    (hp : p.Keeps K post w) (h : Program.Moves R (w, p) (w', p')) :
    K.Leads w w' ∧ p'.Keeps K post w' := by
  cases h with
  | call h =>
      obtain ⟨hlead, hrep⟩ := binds.answers hw hp.1 h
      exact ⟨hlead, hp.2 w' _ hlead hrep⟩
  | pause => exact ⟨.refl hw, hp⟩
  | clock h => exact ⟨.refl hw, hp w _ (.refl hw) (binds.shows h)⟩

/-- Any number of steps of a program that keeps its contract. -/
theorem Program.Keeps.movesAlong {K : Contract I W} {post : W → α → Prop} {R : Rules I α W}
    (binds : K.Binds post R) {w w' : W} {p p' : Program I α} (hw : K.holds w)
    (hp : p.Keeps K post w) (h : Relation.ReflTransGen (Program.Moves R) (w, p) (w', p')) :
    K.Leads w w' ∧ p'.Keeps K post w' := by
  generalize hend : (w', p') = last at h
  induction h generalizing w' p' with
  | refl =>
      obtain ⟨rfl, rfl⟩ := Prod.mk.inj hend
      exact ⟨.refl hw, hp⟩
  | tail _ hlast ih =>
      obtain ⟨hlead, hp₁⟩ := ih rfl
      subst hend
      obtain ⟨hlead', hp'⟩ := hp₁.moves binds hlead.holds hlast
      exact ⟨hlead.trans hlead', hp'⟩

namespace Traffic

variable {K : Contract I W} {post : W → α → Prop} {R : Rules I α W} {t t' : Traffic I α W}

/-- The site is as the contract says, and all programs on it keep the contract. -/
structure Orderly (K : Contract I W) (post : W → α → Prop) (t : Traffic I α W) : Prop where
  holds : K.holds t.site
  keeps : ∀ {k p}, t.running k = some p → p.Keeps K post t.site

namespace Orderly

theorem quiet {w : W} (h : K.holds w) : Orderly K post (Traffic.quiet w) :=
  ⟨h, fun hk => nomatch hk⟩

/-- Besides the program that goes on, the others keep the contract because the site leads on. -/
theorem resume (binds : K.Binds post R) (h : Orderly K post t) {k : Nat} {w' : W}
    {p : Program I α} (hlead : K.Leads t.site w') (hp : p.Keeps K post w') :
    Orderly K post (t.resume k w' p) := by
  refine ⟨hlead.holds, fun {j q} hq => ?_⟩
  by_cases hj : j = k
  · subst hj
    have hpq : p = q := by simpa [Traffic.resume] using hq
    exact hpq ▸ hp
  · have hold : t.running j = some q := by
      simpa [Traffic.resume, Function.update_of_ne hj] using hq
    exact (h.keeps hold).mono binds.stable hlead.evolves

/-- **One step of all** leads to a site within the promises, on which all programs still keep the
contract. -/
theorem step (binds : K.Binds post R) (h : Orderly K post t) (hs : Step R t t') :
    K.Leads t.site t'.site ∧ Orderly K post t' := by
  cases hs with
  | begin free hb =>
      have hlead := Contract.Leads.refl h.holds
      exact ⟨hlead, h.resume binds hlead (binds.begins h.holds hb)⟩
  | advance busy hm =>
      obtain ⟨hlead, hp⟩ := (h.keeps busy).moves binds h.holds hm
      exact ⟨hlead, h.resume binds hlead hp⟩
  | change hc =>
      have hlead := binds.changes h.holds hc
      exact ⟨hlead, hlead.holds, fun hk => (h.keeps hk).mono binds.stable hlead.evolves⟩

/-- **A whole run** leads to a site within the promises. -/
theorem run (binds : K.Binds post R) (h : Orderly K post t) (hr : Run R t t') :
    K.Leads t.site t'.site ∧ Orderly K post t' := by
  induction hr with
  | refl => exact ⟨.refl h.holds, h⟩
  | tail _ hs ih =>
      obtain ⟨hlead, horderly⟩ := ih
      obtain ⟨hlead', horderly'⟩ := horderly.step binds hs
      exact ⟨hlead.trans hlead', horderly'⟩

/-- **What is kept by every permitted call** and by every change of the site is still so at the end
of a run. -/
theorem maintains (inv : W → Prop) (binds : K.Binds post R)
    (answers : ∀ {w c a w'}, K.holds w → K.permits w c → R.answers w c a w' → inv w → inv w')
    (changes : ∀ {w w'}, K.holds w → R.changes w w' → inv w → inv w')
    (h : Orderly K post t) (hinv : inv t.site) (hr : Run R t t') : inv t'.site := by
  induction hr with
  | refl => exact hinv
  | @tail t₁ t₂ hrun hs ih =>
      have horderly := (h.run binds hrun).2
      cases hs with
      | begin => exact ih
      | advance busy hm =>
          cases hm with
          | call answered => exact answers horderly.holds (horderly.keeps busy).1 answered ih
          | pause | clock => exact ih
      | change hc => exact changes horderly.holds hc ih

/-- **One program of a run** is still there, and keeps the contract also with what is said about its
result alone. -/
theorem follow {own : W → α → Prop} (binds : K.Binds post R) (stable : K.Stable own)
    (h : Orderly K post t) {k : Nat} {p : Program I α} (busy : t.running k = some p)
    (hp : p.Keeps K own t.site) (hr : Run R t t') :
    ∃ p', t'.running k = some p' ∧ p'.Keeps K own t'.site := by
  induction hr with
  | refl => exact ⟨p, busy, hp⟩
  | @tail t₁ t₂ hrun hs ih =>
      obtain ⟨p₁, hbusy, hkeeps⟩ := ih
      have horderly := (h.run binds hrun).2
      -- While another one goes on, the site leads on.
      have aside (hsame : t₂.running k = t₁.running k) :
          ∃ p', t₂.running k = some p' ∧ p'.Keeps K own t₂.site :=
        ⟨p₁, hsame.trans hbusy, hkeeps.mono stable (horderly.step binds hs).1.evolves⟩
      cases hs with
      | @begin j q free hb =>
          have hne : k ≠ j := by
            rintro rfl
            cases free.symm.trans hbusy
          exact aside (Function.update_of_ne hne _ _)
      | @advance j q w q' hbusy' hm =>
          by_cases hj : k = j
          · subst hj
            obtain rfl : p₁ = q := Option.some.inj (hbusy.symm.trans hbusy')
            exact ⟨q', Function.update_self _ _ _, (hkeeps.moves binds horderly.holds hm).2⟩
          · exact aside (Function.update_of_ne hj _ _)
      | change => exact aside rfl

end Orderly

end Traffic

end NodeFencing
