import NodeFencing.Proofs.Program.Traffic

/-!
# What one program does on the way to its result

A program among others is followed alone: the calls that it makes, each with its answer and
the site before and behind it, while the others change the site in between.  What they do is
not told apart from what the site does by itself.

Some programs are over once a certain call is answered in a certain way.  They have their
result then, without another call, a pause or a look at the clock.  This is a property of
the text of a program, whatever it is answered, so it is proved along the text.

## Main Definitions

* `Exchange` — a call with its answer, and the site before and behind it
* `Program.Goes` — how far a program goes, with its exchanges on the way
* `Program.Goes.Parts` — how far a program of two parts has gone
* `Contract.limits` — the contract under which only some calls may be made
* `Program.EndsOn`, `Task.EndsOn` — a program that is over once it is answered in some way

## Main statements

* `Program.Goes.split` — a program of two parts goes through one after the other
* `Program.Keeps.within` — the calls of a program that keeps to a limit
* `Program.Keeps.goes` — a program that keeps a contract makes permitted calls only
* `Program.EndsOn.bind`, `Program.EndsOn.retry`, `Task.EndsOn.bind` — the end along the text
* `Program.EndsOn.goes`, `Program.EndsOn.ends` — the exchange that ends a program is its last one
-/

namespace NodeFencing

variable {I : Interface} {W α β ε : Type}

/-- A call with its answer, and the site before and behind it. -/
structure Exchange (I : Interface) (W : Type) where
  before : W
  call : I.Call
  answer : I.Answer call
  behind : W

/-- How far a program goes among others, with its exchanges on the way. -/
inductive Program.Goes (R : Rules I α W) (w₀ : W) (p₀ : Program I α) :
    List (Exchange I W) → W → Program I α → Prop
  | begun : Goes R w₀ p₀ [] w₀ p₀
  | calls {had w c next a w'} (h : Goes R w₀ p₀ had w (.call c next))
      (answered : R.answers w c a w') : Goes R w₀ p₀ (had ++ [⟨w, c, a, w'⟩]) w' (next a)
  | pauses {had w d next} (h : Goes R w₀ p₀ had w (.pause d next)) : Goes R w₀ p₀ had w next
  | looks {had w next now} (h : Goes R w₀ p₀ had w (.clock next)) (shown : R.shows w now) :
      Goes R w₀ p₀ had w (next now)
  | others {had w p w'} (h : Goes R w₀ p₀ had w p) (changed : R.changes w w') :
      Goes R w₀ p₀ had w' p

namespace Program

variable {R : Rules I α W} {w₀ w : W} {p₀ p : Program I α} {had : List (Exchange I W)}

/-- All exchanges are as the rules say. -/
theorem Goes.answered (h : Goes R w₀ p₀ had w p) :
    ∀ x ∈ had, R.answers x.before x.call x.answer x.behind := by
  induction h with
  | begun => exact nofun
  | calls h answered ih =>
      intro x hx
      rcases List.mem_append.mp hx with hold | hnew
      · exact ih x hold
      · exact List.mem_singleton.mp hnew ▸ answered
  | pauses h ih => exact ih
  | looks h shown ih => exact ih
  | others h changed ih => exact ih

/-- **A program that keeps a contract** makes permitted calls only, and goes on to keep it. -/
theorem Keeps.goes {K : Contract I W} {post : W → α → Prop} (binds : K.Binds post R)
    (hw : K.holds w₀) (hp : p₀.Keeps K post w₀) (h : Goes R w₀ p₀ had w p) :
    K.Leads w₀ w ∧ p.Keeps K post w ∧ ∀ x ∈ had, K.permits x.before x.call := by
  induction h with
  | begun => exact ⟨.refl hw, hp, nofun⟩
  | calls h answered ih =>
      obtain ⟨hlead, hkeeps, hpermits⟩ := ih
      obtain ⟨hlead', hkeeps'⟩ := hkeeps.moves binds hlead.holds (.call answered)
      refine ⟨hlead.trans hlead', hkeeps', fun x hx => ?_⟩
      rcases List.mem_append.mp hx with hold | hnew
      · exact hpermits x hold
      · exact List.mem_singleton.mp hnew ▸ hkeeps.1
  | pauses h ih => exact ih
  | looks h shown ih =>
      obtain ⟨hlead, hkeeps, hpermits⟩ := ih
      exact ⟨hlead, (hkeeps.moves binds hlead.holds (.clock shown)).2, hpermits⟩
  | others h changed ih =>
      obtain ⟨hlead, hkeeps, hpermits⟩ := ih
      have hlead' := binds.changes hlead.holds changed
      exact ⟨hlead.trans hlead', hkeeps.mono binds.stable hlead'.evolves, hpermits⟩

/-! ### The parts of a program -/

end Program

/-- The same site for programs with results of another type. -/
def Rules.serving (R : Rules I α W) (β : Type) : Rules I β W where
  begins _ _ := False
  answers := R.answers
  changes := R.changes
  shows := R.shows

namespace Program.Goes

variable {R : Rules I α W} {w₀ w : W} {p₀ q : Program I α} {had : List (Exchange I W)}

theorem serving (h : Goes R w₀ p₀ had w q) : Goes (R.serving α) w₀ p₀ had w q := by
  induction h with
  | begun => exact .begun
  | calls h answered ih => exact ih.calls answered
  | pauses h ih => exact ih.pauses
  | looks h shown ih => exact ih.looks shown
  | others h changed ih => exact ih.others changed

/-- A program that has its result does nothing more. -/
theorem of_done {a : α} (h : Goes R w₀ (.done a) had w q) : had = [] ∧ q = .done a := by
  induction h with
  | begun => exact ⟨rfl, rfl⟩
  | calls h answered ih => cases ih.2
  | pauses h ih => cases ih.2
  | looks h shown ih => cases ih.2
  | others h changed ih => exact ih

/-- A pause is no exchange; during it others may go on. -/
theorem of_pause {d : Duration} {next : Program I α} (h : Goes R w₀ (.pause d next) had w q) :
    (had = [] ∧ q = .pause d next) ∨ ∃ w₁, Goes R w₁ next had w q := by
  induction h with
  | begun => exact .inl ⟨rfl, rfl⟩
  | calls h answered ih =>
      rcases ih with ⟨-, hpause⟩ | ⟨w₁, hnext⟩
      · cases hpause
      · exact .inr ⟨w₁, hnext.calls answered⟩
  | @pauses had w d' next' h ih =>
      rcases ih with ⟨rfl, hpause⟩ | ⟨w₁, hnext⟩
      · obtain ⟨rfl, rfl⟩ := Program.pause.inj hpause
        exact .inr ⟨w, .begun⟩
      · exact .inr ⟨w₁, hnext.pauses⟩
  | looks h shown ih =>
      rcases ih with ⟨-, hpause⟩ | ⟨w₁, hnext⟩
      · cases hpause
      · exact .inr ⟨w₁, hnext.looks shown⟩
  | others h changed ih => exact ih.imp_right fun ⟨w₁, hnext⟩ => ⟨w₁, hnext.others changed⟩

/-- A program that is one call has at most one exchange. -/
theorem of_ask {c : I.Call} {R : Rules I (I.Answer c) W} {q : Program I (I.Answer c)}
    (h : Goes R w₀ (Program.ask c) had w q) :
    (had = [] ∧ q = Program.ask c) ∨
      ∃ before a behind, had = [⟨before, c, a, behind⟩] ∧ q = .done a := by
  induction h with
  | begun => exact .inl ⟨rfl, rfl⟩
  | calls h answered ih =>
      rcases ih with ⟨rfl, hask⟩ | ⟨_, _, _, -, hdone⟩
      · obtain ⟨rfl, hnext⟩ := Program.call.inj hask
        obtain rfl := eq_of_heq hnext
        exact .inr ⟨_, _, _, rfl, rfl⟩
      · cases hdone
  | pauses h ih =>
      rcases ih with ⟨-, hask⟩ | ⟨_, _, _, -, hdone⟩
      · cases hask
      · cases hdone
  | looks h shown ih =>
      rcases ih with ⟨-, hask⟩ | ⟨_, _, _, -, hdone⟩
      · cases hask
      · cases hdone
  | others h changed ih => exact ih

/-- How far a program of two parts has gone: it is in its first part, or has come to the result of
the first part and is in the second. -/
inductive Parts (R : Rules I α W) (w₀ : W) (p : Program I β) (f : β → Program I α)
    (had : List (Exchange I W)) (w : W) (q : Program I α) : Prop
  | first {p'} (h : Goes (R.serving β) w₀ p had w p') (going : ∀ b, p' ≠ .done b)
      (hq : q = p'.bind f)
  | second {before w₁ b behind} (h₁ : Goes (R.serving β) w₀ p before w₁ (.done b))
      (h₂ : Goes R w₁ (f b) behind w q) (hhad : had = before ++ behind)

theorem Parts.of_goes {p p' : Program I β} {f : β → Program I α}
    (h : Goes (R.serving β) w₀ p had w p') : Parts R w₀ p f had w (p'.bind f) := by
  cases p' with
  | done b => exact .second h .begun (List.append_nil had).symm
  | call c next => exact .first h nofun rfl
  | pause d next => exact .first h nofun rfl
  | clock next => exact .first h nofun rfl

/-- A program of two parts that waits for a call is in its first part, which waits for it, or in its
second. -/
theorem Parts.pending {p : Program I β} {f : β → Program I α} {c : I.Call}
    (h : Parts R w₀ p f had w q) (hc : q.pending? = some c) :
    (∃ p', Goes (R.serving β) w₀ p had w p' ∧ p'.pending? = some c) ∨
      ∃ before w₁ b behind, Goes (R.serving β) w₀ p before w₁ (.done b) ∧
        Goes R w₁ (f b) behind w q ∧ had = before ++ behind := by
  cases h with
  | @first p' h going hq =>
      refine .inl ⟨p', h, ?_⟩
      subst hq
      cases p' with
      | done b => exact absurd rfl (going b)
      | call c' next => exact hc
      | pause => cases hc
      | clock => cases hc
  | second h₁ h₂ hhad => exact .inr ⟨_, _, _, _, h₁, h₂, hhad⟩

/-- **A program of two parts** goes through one after the other. -/
theorem split {p : Program I β} {f : β → Program I α} (h : Goes R w₀ (p.bind f) had w q) :
    Parts R w₀ p f had w q := by
  -- Each step of the run is one of the part that is under way; where the first part comes to its
  -- result, `Parts.of_goes` goes over to the second.
  induction h with
  | begun => exact .of_goes .begun
  | @calls had w c next a w' h answered ih =>
      cases ih with
      | @first p' hp' going hq =>
          cases p' with
          | done b => exact absurd rfl (going b)
          | call c' next' =>
              obtain ⟨rfl, hnext⟩ := Program.call.inj hq
              obtain rfl := eq_of_heq hnext
              exact .of_goes (hp'.calls answered)
          | pause => cases hq
          | clock => cases hq
      | second h₁ h₂ hhad =>
          exact .second h₁ (h₂.calls answered) (by rw [hhad, List.append_assoc])
  | @pauses had w d next h ih =>
      cases ih with
      | @first p' hp' going hq =>
          cases p' with
          | done b => exact absurd rfl (going b)
          | pause d' next' =>
              obtain ⟨rfl, rfl⟩ := Program.pause.inj hq
              exact .of_goes hp'.pauses
          | call => cases hq
          | clock => cases hq
      | second h₁ h₂ hhad => exact .second h₁ h₂.pauses hhad
  | @looks had w next now h shown ih =>
      cases ih with
      | @first p' hp' going hq =>
          cases p' with
          | done b => exact absurd rfl (going b)
          | clock next' =>
              obtain rfl := Program.clock.inj hq
              exact .of_goes (hp'.looks shown)
          | call => cases hq
          | pause => cases hq
      | second h₁ h₂ hhad => exact .second h₁ (h₂.looks shown) hhad
  | others h changed ih =>
      cases ih with
      | first hp' going hq => exact .first (hp'.others changed) going hq
      | second h₁ h₂ hhad => exact .second h₁ (h₂.others changed) hhad

/-- A program of two parts that has its result has gone through both. -/
theorem split_done {p : Program I β} {f : β → Program I α} {a : α}
    (h : Goes R w₀ (p.bind f) had w (.done a)) :
    ∃ before w₁ b behind, Goes (R.serving β) w₀ p before w₁ (.done b) ∧
      Goes R w₁ (f b) behind w (.done a) ∧ had = before ++ behind := by
  cases h.split with
  | @first p' hp' going hq =>
      cases p' with
      | done b => exact absurd rfl (going b)
      | call => cases hq
      | pause => cases hq
      | clock => cases hq
  | second h₁ h₂ hhad => exact ⟨_, _, _, _, h₁, h₂, hhad⟩

/-- A program of two parts of which the second has its result at once: all that is done is done by
the first. -/
theorem split_ending {p : Program I β} {f : β → Program I α} (ends : ∀ b, ∃ a, f b = .done a)
    (h : Goes R w₀ (p.bind f) had w q) :
    ∃ w' p', Goes (R.serving β) w₀ p had w' p' ∧
      ∀ a, q = .done a → ∃ b, p' = .done b ∧ f b = .done a := by
  cases h.split with
  | @first p' hp' going hq =>
      refine ⟨w, p', hp', fun a hdone => ?_⟩
      cases p' with
      | done b => exact absurd rfl (going b)
      | call => cases hq.symm.trans hdone
      | pause => cases hq.symm.trans hdone
      | clock => cases hq.symm.trans hdone
  | @second before w₁ b behind h₁ h₂ hhad =>
      obtain ⟨a, ha⟩ := ends b
      rw [ha] at h₂
      obtain ⟨rfl, hq⟩ := h₂.of_done
      rw [List.append_nil] at hhad
      refine ⟨w₁, .done b, hhad ▸ h₁, fun a' hdone => ⟨b, rfl, ?_⟩⟩
      rw [ha, ← hq, hdone]

end Program.Goes

/-! ### Limits to the calls of a program -/

/-- The contract under which only some calls may be made, whatever the site is like. -/
def Contract.limits (W : Type) (allowed : I.Call → Prop) : Contract I W where
  holds _ := True
  evolves _ _ := True
  permits _ c := allowed c
  reports _ _ _ := True
  evolves_refl _ := trivial
  evolves_trans _ _ := trivial
  permits_mono _ h := h

/-- **All calls of a program are allowed**, and what is said about its result is true of it. -/
theorem Program.Keeps.within {allowed : I.Call → Prop} {post : α → Prop} {R : Rules I α W}
    {w₀ w : W} {p₀ q : Program I α} {had : List (Exchange I W)}
    (hp : p₀.Keeps (.limits W allowed) (fun _ a => post a) w₀) (h : Goes R w₀ p₀ had w q) :
    (∀ x ∈ had, allowed x.call) ∧ ∀ a, q = .done a → post a := by
  have binds : (Contract.limits W allowed).Binds (fun _ a => post a) (R.serving α) := {
    stable := fun _ _ _ _ hpost => hpost
    begins := fun _ h => h.elim
    answers := fun _ _ _ => ⟨⟨trivial, trivial⟩, trivial⟩
    changes := fun _ _ => ⟨trivial, trivial⟩
    shows := fun _ => trivial }
  obtain ⟨-, hkeeps, hallowed⟩ := hp.goes binds trivial h.serving
  refine ⟨hallowed, fun a ha => ?_⟩
  subst ha
  exact hkeeps

namespace Program

variable {R : Rules I α W} {w₀ w : W} {p₀ p : Program I α} {had : List (Exchange I W)}

/-! ### Programs that end on an answer -/

variable {last : (c : I.Call) → I.Answer c → Prop}

/-- A program is over once a call is answered in some way, and has a result as it should. -/
def EndsOn (last : (c : I.Call) → I.Answer c → Prop) (post : α → Prop) : Program I α → Prop
  | done _ => True
  | call c next => ∀ a, (last c a → ∃ b, next a = done b ∧ post b) ∧ (next a).EndsOn last post
  | pause _ next => next.EndsOn last post
  | clock next => ∀ now, (next now).EndsOn last post

namespace EndsOn

variable {post : α → Prop}

theorem ask {c : I.Call} {post : I.Answer c → Prop} (h : ∀ a, last c a → post a) :
    (Program.ask (I := I) c).EndsOn last post :=
  fun a => ⟨fun hlast => ⟨a, rfl, h a hlast⟩, trivial⟩

/-- One program behind another: where the first is over, the second has its result at once. -/
theorem bind {p : Program I α} {f : α → Program I β} {post' : β → Prop} (h : p.EndsOn last post)
    (ending : ∀ a, post a → ∃ b, f a = done b ∧ post' b) (hf : ∀ a, (f a).EndsOn last post') :
    (p.bind f).EndsOn last post' := by
  induction p with
  | done a => exact hf a
  | call c next ih =>
      refine fun answer => ⟨fun hlast => ?_, ih answer (h answer).2⟩
      obtain ⟨a, hnext, ha⟩ := (h answer).1 hlast
      obtain ⟨b, hfa, hb⟩ := ending a ha
      refine ⟨b, ?_, hb⟩
      show (next answer).bind f = done b
      rw [hnext]
      exact hfa
  | pause d next ih => exact ih h
  | clock next ih => exact fun now => ih now (h now)

/-- A call that is never answered in this way. -/
theorem askAside {c : I.Call} {post : I.Answer c → Prop} (h : ∀ a, ¬ last c a) :
    (Program.ask (I := I) c).EndsOn last post :=
  .ask fun a hlast => absurd hlast (h a)

/-- One program behind another that is never over before. -/
theorem after {p : Program I α} {f : α → Program I β} {post' : β → Prop}
    (h : p.EndsOn last fun _ => False) (hf : ∀ a, (f a).EndsOn last post') :
    (p.bind f).EndsOn last post' :=
  h.bind (fun _ ha => ha.elim) hf

/-- An operation that is over has succeeded, and so is not tried again. -/
theorem retryFrom {op : Program I (Except ε α)}
    (h : op.EndsOn last fun r => ∃ a, r = .ok a ∧ post a) (b : Backoff) (attempt more : Nat) :
    (Program.retryFrom b op attempt more).EndsOn last fun r => ∃ a, r = .ok a ∧ post a := by
  induction more generalizing attempt with
  | zero => exact h
  | succ more ih =>
      refine h.bind ?_ fun r => ?_
      · rintro _ ⟨a, rfl, ha⟩
        exact ⟨.ok a, rfl, a, rfl, ha⟩
      · cases r with
        | ok a => trivial
        | error e => exact ih (attempt + 1)

@[inherit_doc retryFrom]
theorem retry {op : Program I (Except ε α)} (b : Backoff)
    (h : op.EndsOn last fun r => ∃ a, r = .ok a ∧ post a) :
    (Program.retry b op).EndsOn last fun r => ∃ a, r = .ok a ∧ post a :=
  h.retryFrom b 1 _

/-- **The exchange that ends a program** is its last one, and the program has its result. -/
theorem goes (hp : p₀.EndsOn last post) (h : Goes R w₀ p₀ had w p) :
    ((∀ x ∈ had, ¬ last x.call x.answer) ∧ p.EndsOn last post) ∨
      ∃ past x a, had = past ++ [x] ∧ (∀ y ∈ past, ¬ last y.call y.answer) ∧
        last x.call x.answer ∧ p = .done a ∧ post a := by
  induction h with
  | begun => exact .inl ⟨nofun, hp⟩
  | @calls had w c next a w' h answered ih =>
      rcases ih with ⟨hpast, hends⟩ | ⟨_, _, _, _, _, _, hdone, _⟩
      · by_cases hlast : last c a
        · obtain ⟨b, hnext, hb⟩ := (hends a).1 hlast
          exact .inr ⟨had, _, b, rfl, hpast, hlast, hnext, hb⟩
        · refine .inl ⟨fun x hx => ?_, (hends a).2⟩
          rcases List.mem_append.mp hx with hold | hnew
          · exact hpast x hold
          · exact List.mem_singleton.mp hnew ▸ hlast
      · cases hdone
  | pauses h ih =>
      rcases ih with ⟨hpast, hends⟩ | ⟨_, _, _, _, _, _, hdone, _⟩
      · exact .inl ⟨hpast, hends⟩
      · cases hdone
  | looks h shown ih =>
      rcases ih with ⟨hpast, hends⟩ | ⟨_, _, _, _, _, _, hdone, _⟩
      · exact .inl ⟨hpast, hends _⟩
      · cases hdone
  | others h changed ih => exact ih

/-- After the exchange that ends a program there is no other. -/
theorem ends (hp : p₀.EndsOn last post) (h : Goes R w₀ p₀ had w p) {past rest : List (Exchange I W)}
    {x : Exchange I W} (hhad : had = past ++ x :: rest) (hlast : last x.call x.answer) :
    rest = [] ∧ (∀ y ∈ past, ¬ last y.call y.answer) ∧ ∃ a, p = .done a ∧ post a := by
  rcases hp.goes h with ⟨hnone, -⟩ | ⟨past', x', a, hhad', hpast, -, hdone, ha⟩
  · exact absurd hlast (hnone x (hhad ▸ List.mem_append_right _ List.mem_cons_self))
  · have hsplit : past ++ x :: rest = past' ++ [x'] := hhad.symm.trans hhad'
    rcases List.eq_nil_or_concat rest with rfl | ⟨front, z, rfl⟩
    · obtain ⟨rfl, -⟩ := List.append_inj' hsplit rfl
      exact ⟨rfl, hpast, a, hdone, ha⟩
    · rw [List.concat_eq_append, ← List.cons_append, ← List.append_assoc] at hsplit
      obtain ⟨rfl, -⟩ := List.append_inj' hsplit rfl
      exact absurd hlast (hpast x (List.mem_append_right _ List.mem_cons_self))

end EndsOn

end Program

/-! ### Programs that may fail -/

/-- A program that may fail is over once a call is answered in some way, and has succeeded. -/
def Task.EndsOn (last : (c : I.Call) → I.Answer c → Prop) (post : α → Prop)
    (t : ExceptT ε (Program I) α) : Prop :=
  t.run.EndsOn last fun r => ∃ a, r = .ok a ∧ post a

namespace Task.EndsOn

variable {last : (c : I.Call) → I.Answer c → Prop} {post : α → Prop}

/-- One task behind another: where the first is over, the second has its result at once. -/
theorem bind {t : ExceptT ε (Program I) α} {f : α → ExceptT ε (Program I) β} {post' : β → Prop}
    (h : Task.EndsOn last post t) (ending : ∀ a, post a → ∃ b, f a = Pure.pure b ∧ post' b)
    (hf : ∀ a, Task.EndsOn last post' (f a)) : Task.EndsOn last post' (t >>= f) := by
  refine Program.EndsOn.bind h ?_ fun r => ?_
  · rintro _ ⟨a, rfl, ha⟩
    obtain ⟨b, hfa, hb⟩ := ending a ha
    exact ⟨.ok b, congrArg ExceptT.run hfa, b, rfl, hb⟩
  · cases r with
    | ok a => exact hf a
    | error e => trivial

/-- One task behind another that is never over before. -/
theorem after {t : ExceptT ε (Program I) α} {f : α → ExceptT ε (Program I) β} {post' : β → Prop}
    (h : Task.EndsOn last (fun _ => False) t) (hf : ∀ a, Task.EndsOn last post' (f a)) :
    Task.EndsOn last post' (t >>= f) :=
  h.bind (fun _ ha => ha.elim) hf

/-- The clock may be read. -/
theorem now {post : Instant → Prop} :
    Task.EndsOn last post (ExceptT.lift Program.now : ExceptT ε (Program I) Instant) :=
  fun _ => trivial

end Task.EndsOn

end NodeFencing
