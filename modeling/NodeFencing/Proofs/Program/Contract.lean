import NodeFencing.Backoff
import NodeFencing.TaskError

/-!
# Contracts of programs

A program that works on a cluster is not alone: between a call and its answer, and in
every pause, others may change what it has read.  What it may still rely on, and what it
owes to the others, is a contract.  The surroundings promise how they change at most and
what an answer says about them; the program promises which calls it makes.

A program keeps a contract if all its calls are permitted, whatever it is answered within
the promises of its surroundings.  This is a property of the program alone, proved along
its text; what follows for programs that run side by side is said in
`NodeFencing.Proofs.Program.Traffic`.

## Main Definitions

* `Contract` — the promises of both sides
* `Program.pending?` — the call that a program waits for
* `Program.Keeps` — a program keeps a contract and ends with a result as it should
* `Task.Keeps` — the same for a program that may fail

## Main statements

* `Program.Keeps.mono` — a program that keeps a contract goes on to keep it while others work
* `Program.Keeps.bind`, `Program.Keeps.retry`, `Task.Keeps.bind` — the contract along the text
-/

namespace NodeFencing

variable {I : Interface} {W α β ε : Type}

/-- The promises of a program and of its surroundings, which are in states of type `W`. -/
structure Contract (I : Interface) (W : Type) where
  /-- What is true of the surroundings at any time. -/
  holds : W → Prop
  /-- How the surroundings may change while a program waits. -/
  evolves : W → W → Prop
  /-- The calls that a program may make. -/
  permits : W → I.Call → Prop
  /-- What an answer says about the surroundings at the time when it is given. -/
  reports : W → (c : I.Call) → I.Answer c → Prop
  /-- What the clock may show. -/
  shows : W → Instant → Prop := fun _ _ => True
  evolves_refl : ∀ w, evolves w w
  evolves_trans : ∀ {a b c}, evolves a b → evolves b c → evolves a c
  permits_mono : ∀ {w w' c}, evolves w w' → permits w c → permits w' c

namespace Contract

/-- What is said about a result stays true while the surroundings change. -/
def Stable (K : Contract I W) (post : W → α → Prop) : Prop :=
  ∀ ⦃w w' a⦄, K.evolves w w' → post w a → post w' a

/-- Surroundings that become others within the promises. -/
structure Leads (K : Contract I W) (w w' : W) : Prop where
  evolves : K.evolves w w'
  holds : K.holds w'

namespace Leads

variable {K : Contract I W} {a b c : W}

theorem refl (h : K.holds a) : K.Leads a a :=
  ⟨K.evolves_refl a, h⟩

theorem trans (h₁ : K.Leads a b) (h₂ : K.Leads b c) : K.Leads a c :=
  ⟨K.evolves_trans h₁.evolves h₂.evolves, h₂.holds⟩

end Leads

/-- Between two times a call was answered. -/
def Told (K : Contract I W) (w w' : W) (c : I.Call) (a : I.Answer c) : Prop :=
  ∃ v, K.Leads w v ∧ K.reports v c a ∧ K.Leads v w'

theorem Told.mono {K : Contract I W} {u w w' w'' : W} {c : I.Call} {a : I.Answer c}
    (h : K.Told w w' c a) (hu : K.Leads u w) (hlead : K.Leads w' w'') : K.Told u w'' c a := by
  obtain ⟨v, hv, hrep, hw'⟩ := h
  exact ⟨v, hu.trans hv, hrep, hw'.trans hlead⟩

end Contract

/-! ### Programs -/

/-- The call that a program waits for. -/
def Program.pending? : Program I α → Option I.Call
  | call c _ => some c
  | _ => none

/-- A program makes only permitted calls, as long as its surroundings keep their promises, and what
is said about its result is then true. -/
def Program.Keeps (K : Contract I W) (post : W → α → Prop) : Program I α → W → Prop
  | done a, w => post w a
  | call c next, w => K.permits w c ∧
      ∀ w' a, K.Leads w w' → K.reports w' c a → (next a).Keeps K post w'
  | pause _ next, w => next.Keeps K post w
  | clock next, w => ∀ w' now, K.Leads w w' → K.shows w' now → (next now).Keeps K post w'

namespace Program.Keeps

variable {K : Contract I W} {post : W → α → Prop} {w w' : W} {p : Program I α}

/-- What others do within the promises does not keep a program from its own. -/
theorem mono (stable : K.Stable post) (hw : K.evolves w w') (h : p.Keeps K post w) :
    p.Keeps K post w' := by
  induction p generalizing w w' with
  | done a => exact stable hw h
  | call c next ih =>
      refine ⟨K.permits_mono hw h.1, fun w'' a hlead hrep => ?_⟩
      exact h.2 w'' a ⟨K.evolves_trans hw hlead.evolves, hlead.holds⟩ hrep
  | pause d next ih => exact ih hw h
  | clock next ih =>
      intro w'' now hlead hshow
      exact h w'' now ⟨K.evolves_trans hw hlead.evolves, hlead.holds⟩ hshow

/-- The call that a program waits for is permitted. -/
theorem permits_pending {c : I.Call} (h : p.Keeps K post w) (hc : p.pending? = some c) :
    K.permits w c := by
  cases p with
  | call c₀ next =>
      obtain rfl := Option.some.inj hc
      exact h.1
  | _ => cases hc

/-- Less may be said about the result. -/
theorem weaken {post' : W → α → Prop} (hw : K.holds w) (h : p.Keeps K post w)
    (imp : ∀ w' a, K.Leads w w' → post w' a → post' w' a) : p.Keeps K post' w := by
  induction p generalizing w with
  | done a => exact imp w a (.refl hw) h
  | call c next ih =>
      refine ⟨h.1, fun w' a hlead hrep => ?_⟩
      exact ih a hlead.holds (h.2 w' a hlead hrep)
        fun w'' b hlead' => imp w'' b (hlead.trans hlead')
  | pause d next ih => exact ih hw h imp
  | clock next ih =>
      intro w' now hlead hshow
      exact ih now hlead.holds (h w' now hlead hshow)
        fun w'' b hlead' => imp w'' b (hlead.trans hlead')

/-- One program behind another: the second begins with what is said about the result of the
first. -/
theorem bind {f : α → Program I β} {post' : W → β → Prop} (hw : K.holds w)
    (h : p.Keeps K post w)
    (hf : ∀ w' a, K.Leads w w' → post w' a → (f a).Keeps K post' w') :
    (p.bind f).Keeps K post' w := by
  induction p generalizing w with
  | done a => exact hf w a (.refl hw) h
  | call c next ih =>
      refine ⟨h.1, fun w' a hlead hrep => ?_⟩
      exact ih a hlead.holds (h.2 w' a hlead hrep)
        fun w'' b hlead' => hf w'' b (hlead.trans hlead')
  | pause d next ih => exact ih hw h hf
  | clock next ih =>
      intro w' now hlead hshow
      exact ih now hlead.holds (h w' now hlead hshow)
        fun w'' b hlead' => hf w'' b (hlead.trans hlead')

/-- One call, with its answer as the result. -/
theorem ask {c : I.Call} (h : K.permits w c) :
    (Program.ask (I := I) c).Keeps K (fun w' a => K.Told w w' c a) w :=
  ⟨h, fun w' _ hlead hrep => ⟨w', hlead, hrep, .refl hlead.holds⟩⟩

/-- An operation may be tried again if it keeps the contract at any later time. -/
theorem retryFrom {op : Program I (Except ε α)} {post : W → Except ε α → Prop} (b : Backoff)
    (hw : K.holds w) (h : ∀ w', K.Leads w w' → op.Keeps K post w') (attempt more : Nat) :
    (Program.retryFrom b op attempt more).Keeps K post w := by
  induction more generalizing w attempt with
  | zero => exact h w (.refl hw)
  | succ more ih =>
      refine bind hw (h w (.refl hw)) fun w' r hlead hpost => ?_
      cases r with
      | ok a => exact hpost
      | error e => exact ih hlead.holds (fun w'' hlead' => h w'' (hlead.trans hlead')) (attempt + 1)

@[inherit_doc retryFrom]
theorem retry {op : Program I (Except ε α)} {post : W → Except ε α → Prop} (b : Backoff)
    (hw : K.holds w) (h : ∀ w', K.Leads w w' → op.Keeps K post w') :
    (Program.retry b op).Keeps K post w :=
  retryFrom b hw h 1 _

end Program.Keeps

/-! ### Programs that may fail -/

/-- A program that may fail keeps a contract; nothing is said about failures. -/
def Task.Keeps (K : Contract I W) (post : W → α → Prop) (t : ExceptT ε (Program I) α)
    (w : W) : Prop :=
  t.run.Keeps K (fun w r => ∀ a, r = .ok a → post w a) w

namespace Task.Keeps

variable {K : Contract I W} {post : W → α → Prop} {w : W}

theorem pure {a : α} (h : post w a) : Task.Keeps K post (Pure.pure a : ExceptT ε (Program I) α) w :=
  fun _ hr => Except.ok.inj hr ▸ h

/-- One task behind another.  If the first fails, the second is not begun. -/
theorem bind {t : ExceptT ε (Program I) α} {f : α → ExceptT ε (Program I) β}
    {post' : W → β → Prop} (hw : K.holds w) (h : Task.Keeps K post t w)
    (hf : ∀ w' a, K.Leads w w' → post w' a → Task.Keeps K post' (f a) w') :
    Task.Keeps K post' (t >>= f) w := by
  refine Program.Keeps.bind hw h fun w' r hlead hpost => ?_
  cases r with
  | ok a => exact hf w' a hlead (hpost a rfl)
  | error e => exact fun _ hr => nomatch hr

/-- Less may be said about the result. -/
theorem weaken {t : ExceptT ε (Program I) α} {post' : W → α → Prop} (hw : K.holds w)
    (h : Task.Keeps K post t w) (imp : ∀ w' a, K.Leads w w' → post w' a → post' w' a) :
    Task.Keeps K post' t w :=
  Program.Keeps.weaken hw h fun w' _ hlead hpost a hr => imp w' a hlead (hpost a hr)

/-- A program that does not fail, as a task. -/
theorem lift {p : Program I α} (h : p.Keeps K post w) :
    Task.Keeps K post (ExceptT.lift p : ExceptT ε (Program I) α) w := by
  induction p generalizing w with
  | done a => exact fun _ hr => Except.ok.inj hr ▸ h
  | call c next ih => exact ⟨h.1, fun w' a hlead hrep => ih a (h.2 w' a hlead hrep)⟩
  | pause d next ih => exact ih h
  | clock next ih => exact fun w' now hlead hshow => ih now (h w' now hlead hshow)

/-- The clock may be read at any time. -/
theorem now (post : W → Instant → Prop)
    (h : ∀ w' t, K.Leads w w' → K.shows w' t → post w' t) :
    Task.Keeps K post (ExceptT.lift Program.now : ExceptT ε (Program I) Instant) w :=
  lift (p := Program.now) h

end Task.Keeps

end NodeFencing
