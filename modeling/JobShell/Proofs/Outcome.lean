/-
**What a computation ensures.**

The supervisor and the shell are computations on a state that may stop early, and what they have
done stays done when they stop.  A statement about such a computation speaks of the state before it
and of the result and the state after it, whichever result it is.  This module fixes that form of
statement and the rules for the ways in which computations are put together; nothing else in the
proofs looks inside the monad.

Main definitions:

* `JobShell.Ensures` — a precondition, a computation, and a condition on every outcome;
* `JobShell.OkOr` — a condition on outcomes of either kind;
* `JobShell.Gives`, `JobShell.Surely` — the outcome that there is, and a condition on the result that
  there is.

Main results:

* `JobShell.Ensures.bind`, `JobShell.Ensures.get_bind`, `JobShell.Ensures.modify_bind`,
  `JobShell.Ensures.set_bind`, `JobShell.Ensures.throw_bind` — sequence, reading and changing the
  state, and stopping;
* `JobShell.Ensures.mono`, `JobShell.Ensures.run` — consequence, and the outcome that there is;
* `JobShell.Ensures.after`, `JobShell.Ensures.stopped`, `JobShell.Ensures.bind_surely` — going on
  from an outcome that is known;
* `JobShell.Ensures.supervise`, `JobShell.Ensures.releasing`, `JobShell.Ensures.restoring`,
  `JobShell.Ensures.restoringMask` — the scopes of the shell and of its supervisor.
-/

import JobShell.Shell

set_option autoImplicit false

namespace JobShell

/-- From every state with `P` a computation comes to a result and a state with `Q`. -/
def Ensures {s α : Type} (P : s → Prop) (body : ExceptT Stop (StateM s) α)
    (Q : Except Stop α → s → Prop) : Prop :=
  ∀ st, P st → Q (body.run st).1 (body.run st).2

/-- A condition on a result that is there, and one on a stop. -/
def OkOr {s α : Type} (ok : α → s → Prop) (stopped : Stop → s → Prop) : Except Stop α → s → Prop
  | .ok a, st => ok a st
  | .error stop, st => stopped stop st

section Rules

variable {s α β : Type} {P P' : s → Prop} {Q Q' : Except Stop α → s → Prop}

theorem run_bind (x : ExceptT Stop (StateM s) β) (f : β → ExceptT Stop (StateM s) α) (st : s) :
    (x >>= f).run st =
      match x.run st with
      | (.ok b, st') => (f b).run st'
      | (.error stop, st') => (.error stop, st') := by
  have hbind : (x >>= f).run st =
      (ExceptT.bindCont f (x.run st).1 : StateM s (Except Stop α)) (x.run st).2 := rfl
  rw [hbind]
  rcases x.run st with ⟨r, st'⟩
  cases r <;> rfl

theorem run_get_bind (f : s → ExceptT Stop (StateM s) α) (st : s) :
    (get >>= f).run st = (f st).run st := by
  rw [run_bind]
  rfl

theorem Ensures.ofPure {a : α} (h : ∀ st, P st → Q (.ok a) st) :
    Ensures P (pure a : ExceptT Stop (StateM s) α) Q := h

theorem Ensures.ofThrow {stop : Stop} (h : ∀ st, P st → Q (.error stop) st) :
    Ensures P (throw stop : ExceptT Stop (StateM s) α) Q := h

theorem Ensures.ofSet {st' : s} {Q : Except Stop PUnit → s → Prop}
    (h : ∀ st, P st → Q (.ok ⟨⟩) st') :
    Ensures P (set st' : ExceptT Stop (StateM s) PUnit) Q := h

theorem Ensures.ofModify {f : s → s} {Q : Except Stop PUnit → s → Prop}
    (h : ∀ st, P st → Q (.ok ⟨⟩) (f st)) :
    Ensures P (modify f : ExceptT Stop (StateM s) PUnit) Q := h

/-- One computation after another: the second one starts from what the first one ensures. -/
theorem Ensures.bind {x : ExceptT Stop (StateM s) β} {f : β → ExceptT Stop (StateM s) α}
    (R : Except Stop β → s → Prop) (hx : Ensures P x R)
    (hf : ∀ b, Ensures (R (.ok b)) (f b) Q)
    (he : ∀ stop st, R (.error stop) st → Q (.error stop) st) : Ensures P (x >>= f) Q := by
  intro st hst
  have hr := hx st hst
  rw [run_bind]
  rcases h : x.run st with ⟨r, st'⟩
  rw [h] at hr
  cases r with
  | ok b => exact hf b st' hr
  | error stop => exact he stop st' hr

/-- Reading the state and going on with it. -/
theorem Ensures.get_bind {f : s → ExceptT Stop (StateM s) α}
    (h : ∀ st, P st → Ensures (· = st) (f st) Q) : Ensures P (get >>= f) Q := by
  intro st hst
  rw [run_bind]
  exact h st hst st rfl

/-- Changing the state and going on with it. -/
theorem Ensures.modify_bind {g : s → s} {f : PUnit → ExceptT Stop (StateM s) α}
    (h : ∀ st, P st → Ensures (· = g st) (f ⟨⟩) Q) : Ensures P (modify g >>= f) Q := by
  intro st hst
  rw [run_bind]
  exact h st hst (g st) rfl

/-- Putting another state in place and going on with it. -/
theorem Ensures.set_bind {st' : s} {f : PUnit → ExceptT Stop (StateM s) α}
    (h : ∀ st, P st → Ensures (· = st') (f ⟨⟩) Q) : Ensures P (set st' >>= f) Q := by
  intro st hst
  rw [run_bind]
  exact h st hst st' rfl

/-- Nothing comes after a stop. -/
theorem Ensures.throw_bind {stop : Stop} {f : β → ExceptT Stop (StateM s) α}
    (h : ∀ st, P st → Q (.error stop) st) : Ensures P (throw stop >>= f) Q := by
  intro st hst
  rw [run_bind]
  exact h st hst

/-- Less may be known before, and less be said afterwards. -/
theorem Ensures.mono {body : ExceptT Stop (StateM s) α} (h : Ensures P body Q)
    (hP : ∀ st, P' st → P st) (hQ : ∀ r st, Q r st → Q' r st) : Ensures P' body Q' :=
  fun st hst => hQ _ _ (h st (hP st hst))

theorem Ensures.post {body : ExceptT Stop (StateM s) α} (h : Ensures P body Q)
    (hQ : ∀ r st, Q r st → Q' r st) : Ensures P body Q' :=
  h.mono (fun _ => id) hQ

theorem Ensures.pre {body : ExceptT Stop (StateM s) α} (h : Ensures P body Q)
    (hP : ∀ st, P' st → P st) : Ensures P' body Q :=
  h.mono hP fun _ _ => id

/-- Two things that are ensured are ensured together. -/
theorem Ensures.and {body : ExceptT Stop (StateM s) α} (h : Ensures P body Q)
    (h' : Ensures P body Q') : Ensures P body fun r st => Q r st ∧ Q' r st :=
  fun st hst => ⟨h st hst, h' st hst⟩

/-- It is enough to consider one state at a time. -/
theorem Ensures.of_eq {body : ExceptT Stop (StateM s) α}
    (h : ∀ st, P st → Ensures (· = st) body Q) : Ensures P body Q :=
  fun st hst => h st hst st rfl

/-- What is ensured of the outcome that a computation has. -/
theorem Ensures.run {body : ExceptT Stop (StateM s) α} {st st' : s} {r : Except Stop α}
    (h : Ensures (· = st) body Q) (hrun : body.run st = (r, st')) : Q r st' := by
  have hq := h st rfl
  rwa [hrun] at hq

end Rules

/-! ### Known outcomes -/

section Known

variable {s α β : Type} {st st' : s} {Q : Except Stop α → s → Prop}

/-- The one outcome of a computation. -/
def Gives (r : Except Stop α) (st : s) (r' : Except Stop α) (st' : s) : Prop := r' = r ∧ st' = st

theorem Gives.run {x : ExceptT Stop (StateM s) α} {r : Except Stop α}
    (h : Ensures (· = st) x (Gives r st')) : x.run st = (r, st') :=
  Prod.ext (h st rfl).1 (h st rfl).2

/-- What comes after a computation whose outcome is known. -/
theorem Ensures.after {x : ExceptT Stop (StateM s) β} {f : β → ExceptT Stop (StateM s) α} {b : β}
    (hx : Ensures (· = st) x (Gives (.ok b) st')) (hf : Ensures (· = st') (f b) Q) :
    Ensures (· = st) (x >>= f) Q := by
  refine Ensures.bind _ hx ?_ ?_
  · rintro _ t ⟨hb, ht⟩
    obtain rfl := Except.ok.inj hb
    exact hf t ht
  · rintro stop t ⟨hstop, -⟩
    cases hstop

/-- Nothing comes after a computation that is known to stop. -/
theorem Ensures.stopped {x : ExceptT Stop (StateM s) β} {f : β → ExceptT Stop (StateM s) α}
    {stop : Stop} (hx : Ensures (· = st) x (Gives (.error stop) st')) (h : Q (.error stop) st') :
    Ensures (· = st) (x >>= f) Q := by
  refine Ensures.bind _ hx ?_ ?_
  · rintro _ t ⟨hb, -⟩
    cases hb
  · rintro _ t ⟨hstop, rfl⟩
    obtain rfl := Except.error.inj hstop
    exact h

/-- There is a result. -/
def Surely (ok : α → s → Prop) : Except Stop α → s → Prop := OkOr ok fun _ _ => False

/-- What comes after a computation that is known to have a result. -/
theorem Ensures.bind_surely {R : β → s → Prop} {x : ExceptT Stop (StateM s) β}
    {f : β → ExceptT Stop (StateM s) α} (hx : Ensures (· = st) x (Surely R))
    (hf : ∀ b t, R b t → Ensures (· = t) (f b) Q) : Ensures (· = st) (x >>= f) Q := by
  refine Ensures.bind _ hx ?_ ?_
  · intro b
    refine Ensures.of_eq ?_
    intro t ht
    exact hf b t ht
  · intro stop t ht
    exact ht.elim

end Known

/-! ### Scopes -/

section Scopes

variable {σ α : Type}

/-- The supervisor's part of the shell changes, and nothing else. -/
theorem Ensures.supervise {P : Shell σ → Prop} {Q : Except Stop α → Shell σ → Prop}
    {body : Descriptors → Supervised σ α}
    (h : ∀ s, P s →
      Ensures (· = s.toSupervisor) (body s.descriptors) fun r v => Q r { s with toSupervisor := v }) :
    Ensures P (Shell.supervise body) Q :=
  fun s hs => h s hs s.toSupervisor rfl

/-- Descriptors are closed if the computation stops early. -/
theorem Ensures.releasing {P : Shell σ → Prop} {Q R : Except Stop α → Shell σ → Prop}
    {fds : List Nat} {body : ShellM σ α} (h : Ensures P body R)
    (hok : ∀ a s, R (.ok a) s → Q (.ok a) s)
    (herr : ∀ stop s, R (.error stop) s →
      Q (.error stop) { s with descriptors := fds.foldl Descriptors.close s.descriptors }) :
    Ensures P (Shell.releasing fds body) Q := by
  intro s hs
  have hr := h s hs
  rcases hbody : body.run s with ⟨r, s'⟩
  rw [hbody] at hr
  unfold Shell.releasing
  rw [ExceptT.run_mk, hbody]
  cases r with
  | ok a => exact hok a s' hr
  | error stop => exact herr stop s' hr

/-- The shell's mask is put back however the computation ends. -/
theorem Ensures.restoring {P : Shell σ → Prop} {Q : Except Stop α → Shell σ → Prop}
    {previous : Bool} {body : ShellM σ α}
    (h : Ensures P body fun r s => Q r { s with signal := s.signal.restore previous }) :
    Ensures P (Shell.restoring previous body) Q := h

/-- The supervisor's mask is put back however the computation ends. -/
theorem Ensures.restoringMask {P : Supervisor σ → Prop}
    {Q : Except Stop α → Supervisor σ → Prop} {previous : Bool} {body : Supervised σ α}
    (h : Ensures P body fun r s => Q r { s with signal := s.signal.restore previous }) :
    Ensures P (Supervisor.restoring previous body) Q := h

end Scopes

end JobShell
