import NodeFencing.Proofs.Program.Exchange
import NodeFencing.Proofs.Program.Interference

/-!
# A program that is alone

Where nobody else works on a site, a program finds it as it has left it.  Then more can be
said than by a contract: not only what an answer says about the site, but what the site is
like behind each call.  This is the case of a discipline that relies on the site to stay as
it is, and it is proved along the text of the program as well.

## Main Definitions

* `Discipline.alone` — a program that relies on being alone, and makes only some calls
* `Task.Obeys` — a program that may fail obeys a discipline

## Main statements

* `Program.Obeys.bind`, `Program.Obeys.retry`, `Task.Obeys.bind` — the discipline along the text
* `Program.Obeys.goes` — what a program does that is followed to some point
* `Program.Keeps.obeys` — a program that keeps a contract obeys a discipline
* `Program.Goes.of_moves` — a run of one program as exchanges
-/

namespace NodeFencing

variable {I : Interface} {W α β ε : Type}

/-- The discipline of a program that is alone on its site and makes only some calls. -/
def Discipline.alone (W : Type) (allowed : I.Call → Prop) : Discipline I W where
  relies := Eq
  permits _ := allowed
  relies_trans := Eq.trans

namespace Program

namespace Obeys

variable {R : Rules I β W} {D : Discipline I W} {w : W}

/-- Which programs may be begun on a site does not matter for one that has begun. -/
theorem serving {p : Program I β} {post : W → β → Prop} (h : p.Obeys R D post w) :
    p.Obeys (R.serving β) D post w := by
  induction p generalizing w with
  | done b => exact h
  | call c next ih =>
      intro u hu
      obtain ⟨permitted, hnext⟩ := h u hu
      exact ⟨permitted, fun a w' answered => ih a (hnext a w' answered)⟩
  | pause d next ih => exact ih h
  | clock next ih => exact fun u now hu shown => ih now (h u now hu shown)

/-- One program behind another: the second begins with what is said about the result of the
first. -/
theorem bind {p : Program I α} {f : α → Program I β} {post : W → α → Prop}
    {post' : W → β → Prop} (h : p.Obeys (R.serving α) D post w)
    (hf : ∀ w' a, post w' a → (f a).Obeys R D post' w') : (p.bind f).Obeys R D post' w := by
  induction p generalizing w with
  | done a => exact hf w a h
  | call c next ih =>
      intro u hu
      obtain ⟨permitted, hnext⟩ := h u hu
      exact ⟨permitted, fun a w' answered => ih a (hnext a w' answered)⟩
  | pause d next ih => exact ih h
  | clock next ih => exact fun u now hu shown => ih now (h u now hu shown)

/-- Less may be said about the result. -/
theorem weaken {p : Program I β} {post post' : W → β → Prop} (h : p.Obeys R D post w)
    (imp : ∀ w' b, post w' b → post' w' b) : p.Obeys R D post' w := by
  induction p generalizing w with
  | done b => exact imp w b h
  | call c next ih =>
      intro u hu
      obtain ⟨permitted, hnext⟩ := h u hu
      exact ⟨permitted, fun a w' answered => ih a (hnext a w' answered)⟩
  | pause d next ih => exact ih h
  | clock next ih => exact fun u now hu shown => ih now (h u now hu shown)

/-- An operation may be tried again if every failure leaves the site in a state in which it may be
tried. -/
theorem retryFrom {R : Rules I (Except ε α) W} {op : Program I (Except ε α)} {fit : W → Prop}
    {post : W → Except ε α → Prop} (b : Backoff)
    (h : ∀ w, fit w → op.Obeys R D (fun w' r => post w' r ∧ ∀ e, r = .error e → fit w') w)
    (hw : fit w) (attempt more : Nat) :
    (Program.retryFrom b op attempt more).Obeys R D post w := by
  induction more generalizing w attempt with
  | zero => exact (h w hw).weaken fun _ _ hpost => hpost.1
  | succ more ih =>
      refine bind (h w hw).serving fun w' r hpost => ?_
      cases r with
      | ok a => exact hpost.1
      | error e => exact ih (hpost.2 e rfl) (attempt + 1)

@[inherit_doc retryFrom]
theorem retry {R : Rules I (Except ε α) W} {op : Program I (Except ε α)} {fit : W → Prop}
    {post : W → Except ε α → Prop} (b : Backoff)
    (h : ∀ w, fit w → op.Obeys R D (fun w' r => post w' r ∧ ∀ e, r = .error e → fit w') w)
    (hw : fit w) : (Program.retry b op).Obeys R D post w :=
  retryFrom b h hw 1 _

/-- **What a program does** that is followed to some point: it has made permitted calls only, and
goes on to obey. -/
theorem goes {p₀ p : Program I β} {post : W → β → Prop} {had : List (Exchange I W)} {w₀ : W}
    (relies_refl : ∀ w, D.relies w w) (stable : ∀ ⦃w w' b⦄, D.relies w w' → post w b → post w' b)
    (changes : ∀ {w w'}, R.changes w w' → D.relies w w') (hp : p₀.Obeys R D post w₀)
    (h : Goes R w₀ p₀ had w p) :
    p.Obeys R D post w ∧ ∀ x ∈ had, D.permits x.before x.call := by
  induction h with
  | begun => exact ⟨hp, nofun⟩
  | @calls had w c next a w' h answered ih =>
      obtain ⟨hobeys, hpast⟩ := ih
      obtain ⟨permitted, hnext⟩ := hobeys w (relies_refl w)
      refine ⟨hnext a w' answered, fun x hx => ?_⟩
      rcases List.mem_append.mp hx with hold | hnew
      · exact hpast x hold
      · exact List.mem_singleton.mp hnew ▸ permitted
  | pauses h ih => exact ih
  | looks h shown ih => exact ⟨ih.1 _ _ (relies_refl _) shown, ih.2⟩
  | others h changed ih => exact ⟨ih.1.mono stable (changes changed), ih.2⟩

end Obeys

/-- A program that keeps a contract obeys a discipline that relies on no more than it promises. -/
theorem Keeps.obeys {K : Contract I W} {R : Rules I α W} {D : Discipline I W} {p : Program I α}
    {post : W → α → Prop} {w : W} (relies : ∀ {w w'}, K.holds w → D.relies w w' → K.Leads w w')
    (permits : ∀ {w c}, K.permits w c → D.permits w c)
    (answers : ∀ {w c a w'}, K.holds w → K.permits w c → R.answers w c a w' →
      K.Leads w w' ∧ K.reports w' c a)
    (shows : ∀ {w now}, R.shows w now → K.shows w now) (hw : K.holds w) (hp : p.Keeps K post w) :
    p.Obeys R D (fun w' a => K.holds w' ∧ post w' a) w := by
  induction p generalizing w with
  | done a => exact ⟨hw, hp⟩
  | call c next ih =>
      intro u hu
      have hlead := relies hw hu
      have permitted := K.permits_mono hlead.evolves hp.1
      refine ⟨permits permitted, fun a w' answered => ?_⟩
      obtain ⟨hlead', hrep⟩ := answers hlead.holds permitted answered
      exact ih a hlead'.holds (hp.2 w' a (hlead.trans hlead') hrep)
  | pause d next ih => exact ih hw hp
  | clock next ih =>
      intro u now hu shown
      have hlead := relies hw hu
      exact ih now hlead.holds (hp u now hlead (shows shown))

/-- A run of one program is a way to go, with its exchanges. -/
theorem Goes.of_moves {R : Rules I α W} {w₀ w : W} {p₀ p : Program I α}
    (h : Relation.ReflTransGen (Program.Moves R) (w₀, p₀) (w, p)) :
    ∃ had, Goes R w₀ p₀ had w p := by
  generalize hend : (w, p) = last at h
  induction h generalizing w p with
  | refl =>
      obtain ⟨rfl, rfl⟩ := Prod.mk.inj hend
      exact ⟨[], .begun⟩
  | @tail b _ _ hlast ih =>
      obtain ⟨w₁, p₁⟩ := b
      obtain ⟨had, hgoes⟩ := ih rfl
      subst hend
      cases hlast with
      | call answered => exact ⟨_, hgoes.calls answered⟩
      | pause => exact ⟨_, hgoes.pauses⟩
      | clock shown => exact ⟨_, hgoes.looks shown⟩

end Program

/-! ### Programs that may fail -/

/-- A program that may fail obeys a discipline; nothing is said about failures. -/
def Task.Obeys (R : Rules I (Except ε α) W) (D : Discipline I W) (post : W → α → Prop)
    (t : ExceptT ε (Program I) α) (w : W) : Prop :=
  t.run.Obeys R D (fun w' r => ∀ a, r = .ok a → post w' a) w

namespace Task.Obeys

variable {R : Rules I (Except ε α) W} {D : Discipline I W} {post : W → α → Prop} {w : W}

theorem pure {a : α} (h : post w a) :
    Task.Obeys R D post (Pure.pure a : ExceptT ε (Program I) α) w :=
  fun _ hr => Except.ok.inj hr ▸ h

/-- One task behind another.  If the first fails, the second is not begun. -/
theorem bind {t : ExceptT ε (Program I) β} {f : β → ExceptT ε (Program I) α} {post₀ : W → β → Prop}
    (h : Task.Obeys (R.serving (Except ε β)) D post₀ t w)
    (hf : ∀ w' b, post₀ w' b → Task.Obeys R D post (f b) w') :
    Task.Obeys R D post (t >>= f) w := by
  refine Program.Obeys.bind h fun w' r hpost => ?_
  cases r with
  | ok b => exact hf w' b (hpost b rfl)
  | error e => exact fun _ hr => nomatch hr

/-- Less may be said about the result. -/
theorem weaken {t : ExceptT ε (Program I) α} {post' : W → α → Prop} (h : Task.Obeys R D post t w)
    (imp : ∀ w' a, post w' a → post' w' a) : Task.Obeys R D post' t w :=
  Program.Obeys.weaken h fun w' _ hpost a hr => imp w' a (hpost a hr)

/-- The clock may be read at any time. -/
theorem now {R : Rules I (Except ε Instant) W} {post : W → Instant → Prop}
    (h : ∀ w' t, D.relies w w' → post w' t) :
    Task.Obeys R D post (ExceptT.lift Program.now : ExceptT ε (Program I) Instant) w := by
  intro u t hu _ a hr
  obtain rfl := Except.ok.inj hr
  exact h u t hu

end Task.Obeys

end NodeFencing
