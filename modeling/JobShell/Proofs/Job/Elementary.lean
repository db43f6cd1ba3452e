/-
**Computations that leave the signal alone.**

Apart from the mask and the flag, a supervisor changes in few ways: the host changes, or the job
table, something is noted, a child ends, a child is there, a dead child is gone.  A relation that
holds across each of these holds across every computation that is put together from them.  These
are all computations on a supervisor but those that put the signal into the mask, put the mask back
or clear the flag.

Main definitions:

* `JobShell.deathCount` — the number of deaths in a journal;
* `JobShell.Supervisor.Elementary` — a relation that holds across the elementary changes;
* `JobShell.Supervisor.Across` — a computation across which a relation holds, however it ends.

Main results:

* `JobShell.Supervisor.Across.bind` — one computation after another;
* `JobShell.Supervisor.Elementary.fork`, `JobShell.Supervisor.Elementary.reapAll`,
  `JobShell.Supervisor.Elementary.waitForeground` — the computations;
* `JobShell.Supervisor.Elementary.reapTerminated`,
  `JobShell.Supervisor.Elementary.reapIfNotified` — those that clear the flag, where the relation
  holds across that.
-/

import JobShell.Proofs.Job.Supervision

set_option autoImplicit false

namespace JobShell

/-! ### Deaths -/

/-- Whether an event is a death. -/
def Event.isDeath : Event → Bool
  | .died _ _ => true
  | _ => false

/-- The number of deaths in a journal. -/
def deathCount (journal : List Event) : Nat := journal.countP Event.isDeath

theorem deathCount_append (journal : List Event) (e : Event) :
    deathCount (journal ++ [e]) = deathCount journal + if e.isDeath then 1 else 0 := by
  cases h : e.isDeath <;> simp [deathCount, h]

namespace Supervisor

variable {σ : Type} {α β : Type} {R : Supervisor σ → Supervisor σ → Prop} {s t : Supervisor σ}

/-- A burial changes nothing, or it is one more death, of which the signal tells. -/
theorem bury_eq_or (s : Supervisor σ) (death : Int × Ending) :
    s.bury death = s ∨
      (s.bury death).signal = s.signal.raise ∧
        deathCount (s.bury death).journal = deathCount s.journal + 1 := by
  unfold bury
  split
  · exact .inr ⟨rfl, by simp [deathCount_append, Event.isDeath]⟩
  · exact .inl rfl

/-! ### Relations across computations -/

/-- A relation that holds across the changes that leave the mask and the flag alone, and across any
number of them. -/
structure Elementary (R : Supervisor σ → Supervisor σ → Prop) : Prop where
  refl (s : Supervisor σ) : R s s
  trans {s t u : Supervisor σ} : R s t → R t u → R s u
  host (host : σ) (s : Supervisor σ) : R s { s with host := host }
  jobs (jobs : JobTable) (s : Supervisor σ) : R s { s with jobs := jobs }
  note {e : Event} (s : Supervisor σ) :
    e.isDeath = false → R s { s with journal := s.journal ++ [e] }
  /-- A child ends. -/
  die (death : Int × Ending) (s : Supervisor σ) : R s (s.bury death)
  /-- A child is there. -/
  start (pid : Int) (s : Supervisor σ) : R s { s with children := s.children ++ [{ pid := pid }] }
  /-- A dead child is gone. -/
  unlink {s : Supervisor σ} {death : Int × Ending} {rest : List Child} :
    unlinkDead s.children = some (death, rest) → R s { s with children := rest }

/-- What a relation relates to some state before a computation, it relates to it afterwards. -/
def Across (R : Supervisor σ → Supervisor σ → Prop) (body : Supervised σ α) : Prop :=
  ∀ s₀, Ensures (R s₀) body fun _ => R s₀

theorem Across.bind {x : Supervised σ β} {f : β → Supervised σ α} (hx : Across R x)
    (hf : ∀ b, Across R (f b)) : Across R (x >>= f) :=
  fun s₀ => Ensures.bind _ (hx s₀) (fun b => hf b s₀) fun _ _ h => h

theorem Across.pure (a : α) : Across R (pure a : Supervised σ α) :=
  fun _ => Ensures.ofPure fun _ h => h

theorem Across.throw (stop : Stop) : Across R (throw stop : Supervised σ α) :=
  fun _ => Ensures.ofThrow fun _ h => h

/-- Reading the state first. -/
theorem Across.get_bind {f : Supervisor σ → Supervised σ α}
    (h : ∀ s₀ s, R s₀ s → Ensures (· = s) (f s) fun _ => R s₀) : Across R (get >>= f) :=
  fun s₀ => Ensures.get_bind fun s hs => h s₀ s hs

/-- Of a computation that does not look at the state it is enough to know that the relation holds
across it. -/
theorem Across.from {body : Supervised σ α} {s₀ : Supervisor σ} (h : Across R body)
    (hs : R s₀ s) : Ensures (· = s) body fun _ => R s₀ :=
  (h s₀).pre fun _ ht => ht ▸ hs

/-- The state after a computation, however it ends. -/
theorem Across.run {body : Supervised σ α} (h : Across R body) (hs : R s t) :
    R s (body.run t).2 :=
  h s t hs

namespace Elementary

variable (hR : Elementary R)

include hR

theorem modify {f : Supervisor σ → Supervisor σ} (h : ∀ s, R s (f s)) :
    Across R (modify f : Supervised σ PUnit) :=
  fun _ => Ensures.ofModify fun s hs => hR.trans hs (h s)

theorem noted {e : Event} (he : e.isDeath = false) :
    Across R (Supervisor.note e : Supervised σ Unit) :=
  hR.modify fun s => hR.note s he

theorem book (status : WaitStatus) : Across R (book status : Supervised σ Unit) :=
  hR.modify fun s => hR.jobs _ s

theorem register (pid : Int) (jobClass : JobClass) :
    Across R (register pid jobClass : Supervised σ Unit) := by
  refine Across.get_bind fun s₀ s hs => ?_
  cases s.jobs.register pid jobClass with
  | none => exact (Across.throw _).from hs
  | some jobs => exact Ensures.ofSet fun _ _ => hR.trans hs (hR.jobs jobs s)

theorem takeCompleted : Across R (takeCompleted : Supervised σ (List Job)) := by
  refine Across.get_bind fun s₀ s hs => Ensures.set_bind fun _ _ => Ensures.ofPure ?_
  rintro _ rfl
  exact hR.trans hs (hR.jobs _ s)

/-- The first dead child is gone, with its status or without, unless there is none. -/
theorem reapDead : Across R (reapDead : Supervised σ (Option WaitStatus)) := by
  refine Across.get_bind fun s₀ s hs => ?_
  cases hdead : unlinkDead s.children with
  | none => exact (Across.pure _).from hs
  | some found =>
      obtain ⟨⟨pid, ending⟩, rest⟩ := found
      have hgone : R s₀ { s with children := rest } := hR.trans hs (hR.unlink hdead)
      refine Ensures.set_bind fun _ _ => ?_
      cases ending.decode pid with
      | ok status => exact ((hR.noted rfl).bind fun _ => Across.pure _).from hgone
      | error errno => exact ((hR.noted rfl).bind fun _ => Across.throw _).from hgone

variable [Host σ] (held : Descriptors)

theorem drifted (s : Supervisor σ) : R s (s.drifted held) :=
  foldl_bury (I := fun t => R s t) (fun t death h => hR.trans h (hR.die death t)) _ _ (hR.host _ s)

theorem drift : Across R (drift held : Supervised σ Unit) := hR.modify fun s => hR.drifted held s

theorem enterCall (call : SystemCall) : Across R (enterCall held call : Supervised σ Unit) := by
  refine (hR.drift held).bind fun _ => Across.get_bind fun s₀ s hs => ?_
  cases Host.refuses call s.host with
  | none => exact (Across.pure _).from hs
  | some errno => exact (Across.throw _).from hs

theorem fork (a : Assignment) : Across R (fork held a : Supervised σ Int) := by
  refine (hR.enterCall held .fork).bind fun _ => Across.get_bind fun s₀ _ hs => ?_
  refine Ensures.modify_bind ?_
  rintro s rfl
  have hstarted := hR.trans (hR.trans hs (hR.host (Host.start s.choosePid a s.host) s))
    (hR.start s.choosePid _)
  exact ((hR.noted rfl).bind fun _ => Across.pure _).from hstarted

theorem sleepUntilDeath : Across R (sleepUntilDeath held : Supervised σ Unit) := by
  refine Across.get_bind fun s₀ s hs => ?_
  split
  · exact (Across.pure _).from hs
  · cases Host.await held s.host with
    | ok result =>
        exact Ensures.ofSet fun _ _ => hR.trans (hR.trans hs (hR.host result.2 s)) (hR.die _ _)
    | error result =>
        refine Ensures.set_bind fun _ _ => ?_
        exact (Across.throw _).from (hR.trans hs (hR.host result.2 s))

theorem waitOne : Across R (waitOne held : Supervised σ WaitStatus) := by
  refine (hR.drift held).bind fun _ => (hR.noted rfl).bind fun _ => ?_
  refine Across.get_bind fun s₀ s hs => ?_
  split
  · exact Ensures.throw_bind fun _ h => h ▸ hs
  · refine Across.from ((hR.sleepUntilDeath held).bind fun _ => hR.reapDead.bind ?_) hs
    rintro (_ | status)
    · exact Across.throw _
    · exact Across.pure _

theorem waitRounds (n : Nat) : Across R (waitRounds held n : Supervised σ Unit) := by
  induction n with
  | zero =>
      refine Across.get_bind fun s₀ s hs => ?_
      split
      · exact ((hR.waitOne held).bind fun _ => Across.pure _).from hs
      · exact (Across.pure _).from hs
  | succ n ih =>
      refine Across.get_bind fun s₀ s hs => ?_
      split
      · refine Across.from ((hR.waitOne held).bind fun status => ?_) hs
        exact (hR.book status).bind fun _ => ih
      · exact (Across.pure _).from hs

theorem waitForeground : Across R (waitForeground held : Supervised σ Unit) :=
  Across.get_bind fun _ s hs => (hR.waitRounds held s.children.length).from hs

theorem reapOne : Across R (reapOne held : Supervised σ (Option WaitStatus)) :=
  (hR.drift held).bind fun _ => hR.reapDead

theorem reapAll (n : Nat) : Across R (reapAll held n : Supervised σ Unit) := by
  induction n with
  | zero => exact Across.pure _
  | succ n ih =>
      refine (hR.reapOne held).bind ?_
      rintro (_ | status)
      · exact Across.pure _
      · exact (hR.book status).bind fun _ => ih

/-! Where the relation holds across clearing the flag as well, it holds across every reaping. -/

section Clearing

variable (hclear : ∀ s, R s { s with signal := s.signal.clear })

include hclear

omit [Host σ] in
theorem takeNotice : Across R (takeNotice : Supervised σ Bool) := by
  refine Across.get_bind fun s₀ s hs => Ensures.set_bind fun _ _ => Ensures.ofPure ?_
  rintro _ rfl
  exact hR.trans hs (hclear s)

theorem reapTerminated : Across R (reapTerminated held : Supervised σ Unit) :=
  (hR.takeNotice hclear).bind fun _ =>
    Across.get_bind fun _ s hs => (hR.reapAll held s.children.length).from hs

theorem reapIfNotified : Across R (reapIfNotified held : Supervised σ Unit) := by
  refine (hR.takeNotice hclear).bind fun notified => ?_
  cases notified with
  | false => exact Across.pure _
  | true => exact hR.reapTerminated held hclear

end Clearing

end Elementary

end Supervisor

end JobShell
