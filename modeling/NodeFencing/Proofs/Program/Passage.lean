import NodeFencing.Proofs.Program.Traffic

/-!
# What a program can come to

A contract says what a program does whatever it meets.  Here it is said what it can do if
it meets the right answers: it comes to some result and leaves the site in some state,
while nobody else does anything.  This is shown along the text of the program, one part
behind another, whatever else the program goes on with.

## Main Definitions

* `Program.Yields` — a program can come to a result on a site
* `Task.Yields` — a program that may fail can come to a result without failing

## Main statements

* `Program.translate_bind`, `Program.translate_retry` — calls carried out by programs
* `Program.Yields.bind`, `Program.Yields.retry`, `Task.Yields.bind` — the results along the text
* `Program.Yields.moves` — a run to the result
-/

namespace NodeFencing

variable {I : Interface} {W α β γ ε : Type}

namespace Program

theorem bind_assoc (p : Program I α) (f : α → Program I β) (g : β → Program I γ) :
    (p.bind f).bind g = p.bind fun a => (f a).bind g := by
  induction p with
  | done a => rfl
  | call c next ih => exact congrArg (call c) (funext ih)
  | pause d next ih => exact congrArg (pause d) ih
  | clock next ih => exact congrArg clock (funext ih)

theorem bind_done (p : Program I α) : p.bind done = p := by
  induction p with
  | done a => rfl
  | call c next ih => exact congrArg (call c) (funext ih)
  | pause d next ih => exact congrArg (pause d) ih
  | clock next ih => exact congrArg clock (funext ih)

/-! ### Calls carried out by programs -/

variable {J : Interface} (carry : (c : I.Call) → Program J (I.Answer c))

theorem translate_bind (p : Program I α) (f : α → Program I β) :
    (p.bind f).translate carry = (p.translate carry).bind fun a => (f a).translate carry := by
  induction p with
  | done a => rfl
  | call c next ih =>
      refine Eq.trans ?_ (bind_assoc _ _ _).symm
      exact congrArg (Program.bind _) (funext ih)
  | pause d next ih => exact congrArg (pause d) ih
  | clock next ih => exact congrArg clock (funext ih)

theorem translate_retryFrom (b : Backoff) (operation : Program I (Except ε α))
    (attempt more : Nat) :
    (retryFrom b operation attempt more).translate carry =
      retryFrom b (operation.translate carry) attempt more := by
  induction more generalizing attempt with
  | zero => rfl
  | succ more ih =>
      refine (translate_bind carry _ _).trans (congrArg (Program.bind _) (funext fun r => ?_))
      cases r with
      | ok a => rfl
      | error e => exact congrArg (pause _) (ih (attempt + 1))

theorem translate_retry (b : Backoff) (operation : Program I (Except ε α)) :
    (retry b operation).translate carry = retry b (operation.translate carry) :=
  translate_retryFrom carry b operation 1 _

/-! ### Results -/

/-- A program can come to a result and leave the site in a state, whatever it goes on with. -/
def Yields (R : Rules I α W) (w : W) (p : Program I β) (w' : W) (b : β) : Prop :=
  ∀ f : β → Program I α, Relation.ReflTransGen (Program.Moves R) (w, p.bind f) (w', f b)

namespace Yields

variable {R : Rules I α W} {w w' w'' : W} {p : Program I β} {b : β}

theorem done : (Program.done b).Yields R w w b :=
  fun _ => .refl

theorem bind {f : β → Program I γ} {c : γ} (h : p.Yields R w w' b)
    (h' : (f b).Yields R w' w'' c) : (p.bind f).Yields R w w'' c := by
  intro g
  rw [bind_assoc]
  exact (h _).trans (h' g)

theorem ask {c : I.Call} {a : I.Answer c} (h : R.answers w c a w') :
    (Program.ask (I := I) c).Yields R w w' a :=
  fun _ => .single (.call h)

theorem now {t : Instant} (h : R.shows w t) : (Program.now (I := I)).Yields R w w t :=
  fun _ => .single (.clock h)

/-- An operation that succeeds is not tried again. -/
theorem retry {op : Program I (Except ε β)} (b : Backoff) {a : β}
    (h : op.Yields R w w' (.ok a)) : (Program.retry b op).Yields R w w' (.ok a) := by
  unfold Program.retry
  cases b.attempts - 1 with
  | zero => exact h
  | succ more => exact h.bind .done

/-- A program that can come to a result has a run that ends with it. -/
theorem moves {p : Program I α} {a : α} (h : p.Yields R w w' a) :
    Relation.ReflTransGen (Program.Moves R) (w, p) (w', .done a) := by
  have hrun := h .done
  rwa [bind_done] at hrun

end Yields

end Program

/-- A program that may fail can come to a result without failing. -/
def Task.Yields (R : Rules I α W) (w : W) (t : ExceptT ε (Program I) β) (w' : W) (b : β) : Prop :=
  t.run.Yields R w w' (.ok b)

namespace Task.Yields

variable {R : Rules I α W} {w w' w'' : W} {t : ExceptT ε (Program I) β} {b : β}

theorem pure : Task.Yields R w (Pure.pure b : ExceptT ε (Program I) β) w b :=
  Program.Yields.done

/-- One task behind another. -/
theorem bind {f : β → ExceptT ε (Program I) γ} {c : γ} (h : Task.Yields R w t w' b)
    (h' : Task.Yields R w' (f b) w'' c) : Task.Yields R w (t >>= f) w'' c :=
  Program.Yields.bind h h'

/-- A program that does not fail, as a task. -/
theorem lift {p : Program I β} (h : p.Yields R w w' b) :
    Task.Yields R w (ExceptT.lift p : ExceptT ε (Program I) β) w' b :=
  Program.Yields.bind h .done

/-- The clock may be read at any time. -/
theorem now {time : Instant} (h : R.shows w time) :
    Task.Yields R w (ExceptT.lift Program.now : ExceptT ε (Program I) Instant) w time :=
  lift (Program.Yields.now h)

end Task.Yields

end NodeFencing
