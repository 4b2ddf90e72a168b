import NodeFencing.Proofs.Program.Traffic

/-!
# Programs under interference

What a program relies on is often broken by the program itself: it is what the others
leave alone until the program acts.  A contract does not tell the two apart; a discipline
does.  Between two steps of its own a program meets only what it relies on; its own steps
are those that the rules of the site allow, whatever they do to the site.

## Main Definitions

* `Discipline` — what a program relies on, and which calls it makes
* `Program.Obeys` — a program makes only such calls and ends with a result as it should
* `Program.stamped` — a program that also tells when it looked at the clock

## Main statements

* `Program.Obeys.mono` — a program goes on to obey while others do what it relies on
* `Program.Obeys.permits_pending`, `Program.Obeys.moves` — what it does itself
-/

namespace NodeFencing

variable {I : Interface} {W α : Type}

/-- What a program relies on and what it does, on a site with states of type `W`. -/
structure Discipline (I : Interface) (W : Type) where
  /-- How others may change the site between two steps of the program. -/
  relies : W → W → Prop
  /-- The calls that the program may make. -/
  permits : W → I.Call → Prop
  relies_trans : ∀ {a b c}, relies a b → relies b c → relies a c

namespace Program

/-- A program makes only permitted calls, as long as others do no more than it relies on, and what
is said about its result is then true.  Its own calls are answered by the rules. -/
def Obeys (R : Rules I α W) (D : Discipline I W) (post : W → α → Prop) : Program I α → W → Prop
  | done a, w => post w a
  | call c next, w => ∀ u, D.relies w u → D.permits u c ∧
      ∀ a w', R.answers u c a w' → (next a).Obeys R D post w'
  | pause _ next, w => next.Obeys R D post w
  | clock next, w => ∀ u now, D.relies w u → R.shows u now → (next now).Obeys R D post u

namespace Obeys

variable {R : Rules I α W} {D : Discipline I W} {post : W → α → Prop} {w w' : W}
  {p p' : Program I α}

/-- What others do within reason does not keep a program from its discipline. -/
theorem mono (stable : ∀ ⦃w w' a⦄, D.relies w w' → post w a → post w' a) (hw : D.relies w w')
    (h : p.Obeys R D post w) : p.Obeys R D post w' := by
  induction p generalizing w w' with
  | done a => exact stable hw h
  | call c next ih => exact fun u hu => h u (D.relies_trans hw hu)
  | pause d next ih => exact ih hw h
  | clock next ih => exact fun u now hu => h u now (D.relies_trans hw hu)

/-- The call that a program waits for is permitted. -/
theorem permits_pending {c : I.Call} (hw : D.relies w w) (h : p.Obeys R D post w)
    (hc : p.pending? = some c) : D.permits w c := by
  cases p with
  | call c₀ next =>
      obtain rfl := Option.some.inj hc
      exact (h w hw).1
  | _ => cases hc

/-- After a step of its own a program goes on to obey. -/
theorem moves (hw : D.relies w w) (h : p.Obeys R D post w)
    (hm : Program.Moves R (w, p) (w', p')) : p'.Obeys R D post w' := by
  cases hm with
  | call hans => exact (h w hw).2 _ w' hans
  | pause => exact h
  | clock hshow => exact h w _ hw hshow

end Obeys

/-! ### Looks at the clock -/

/-- A program that also tells what the clock showed when it last looked at it; before it has, some
given time. -/
def stamped : Program I α → Instant → Program I (α × Instant)
  | done a, t => done (a, t)
  | call c next, t => call c fun answer => (next answer).stamped t
  | pause d next, t => pause d (next.stamped t)
  | clock next, _ => clock fun now => (next now).stamped now

end Program

end NodeFencing
