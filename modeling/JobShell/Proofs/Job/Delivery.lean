/-
**Every completion is handed out exactly once.**

Children are forked, listed or not, end and are reaped by whichever operation comes first; what has
completed is handed out by one call or by a report.  Whatever the order, and whatever fails on the
way, the children that were reaped with a status, except those that were listed in the foreground at
that moment, are those that have been handed out, followed by those that still wait for it.

Main definitions:

* `JobShell.Delivery`, `JobShell.deliveries` — what is to be handed out, according to a journal;
* `JobShell.Deed` — what can be done to a supervisor;
* `JobShell.Account` — a supervisor, and what has been handed out so far;
* `JobShell.Account.Balanced` — the invariant.

Main results:

* `JobShell.Supervisor.Moves.owes` — no move changes the balance;
* `JobShell.Account.balanced_after` — the balance after any deeds.
-/

import JobShell.Proofs.Job.Children

set_option autoImplicit false

namespace JobShell

/-! ### What is to be handed out -/

/-- A child that has ended, with its status. -/
structure Delivery where
  pid : Int
  status : WaitStatus
  deriving DecidableEq, Repr

/-- The job of a delivery that waits to be handed out. -/
def Delivery.waiting (d : Delivery) : Job := ⟨d.pid, .background, .terminated d.status⟩

/-- The job of a delivery as it is handed out. -/
def Delivery.handed (d : Delivery) : Job := ⟨d.pid, .background, .reaped d.status⟩

/-- What an event of the journal leaves to be handed out: a child that is reaped with a status and
is not listed in the foreground at that moment. -/
def Event.delivery? : Event → Option Delivery
  | .reaped status listed =>
      if listed = some .foreground then none else status.pid?.map fun pid => ⟨pid, status⟩
  | _ => none

/-- What a journal leaves to be handed out, in the order in which it was reaped. -/
def deliveries (journal : List Event) : List Delivery := journal.filterMap Event.delivery?

theorem deliveries_append (journal : List Event) (e : Event) :
    deliveries (journal ++ [e]) = deliveries journal ++ e.delivery?.toList := by
  cases h : e.delivery? <;> simp [deliveries, h]

namespace Supervisor

variable {σ : Type}

/-- When `handed` has been handed out, what is completed is what is left to be handed out. -/
structure Owes (handed : List Job) (s : Supervisor σ) : Prop where
  truthful : s.Truthful
  balance : ∃ out waiting : List Delivery,
    deliveries s.journal = out ++ waiting ∧ handed = out.map Delivery.handed ∧
      s.jobs.completed = waiting.map Delivery.waiting

section Keeping

variable {handed : List Job} {s s' : Supervisor σ}

/-- The balance depends on the journal and on the completed jobs alone. -/
theorem Owes.of_eq (h : s.Owes handed) (htruthful : s'.Truthful)
    (hjournal : deliveries s'.journal = deliveries s.journal)
    (hjobs : s'.jobs.completed = s.jobs.completed) : s'.Owes handed :=
  ⟨htruthful, by rw [hjournal, hjobs]; exact h.balance⟩

theorem bury_deliveries (s : Supervisor σ) (death : Int × Ending) :
    deliveries (s.bury death).journal = deliveries s.journal := by
  unfold bury
  split
  · simp [deliveries_append, Event.delivery?]
  · rfl

theorem Owes.bury (h : s.Owes handed) (death : Int × Ending) : (s.bury death).Owes handed :=
  h.of_eq (h.truthful.bury death) (bury_deliveries s death) (by rw [bury_jobs])

theorem Owes.setHost (h : s.Owes handed) (host : σ) : Owes handed { s with host := host } :=
  h.of_eq ⟨h.truthful.distinct, h.truthful.ends, h.truthful.attested⟩ rfl rfl

theorem Owes.setSignal (h : s.Owes handed) (signal : ChildSignal) :
    Owes handed { s with signal := signal } :=
  h.of_eq ⟨h.truthful.distinct, h.truthful.ends, h.truthful.attested⟩ rfl rfl

/-- What is completed is handed out. -/
theorem Owes.take (h : s.Owes handed) :
    Owes (handed ++ s.jobs.takeCompleted.1) { s with jobs := s.jobs.takeCompleted.2 } := by
  obtain ⟨out, waiting, hjournal, rfl, hcompleted⟩ := h.balance
  refine ⟨⟨h.truthful.distinct, h.truthful.ends, h.truthful.attested⟩, out ++ waiting, [], ?_, ?_,
    rfl⟩
  · rw [List.append_nil, hjournal]
  · rw [JobTable.takeCompleted, hcompleted, List.map_append, List.map_map]
    rfl

variable [Host σ]

theorem Owes.forked (h : s.Owes handed) (a : Assignment) : (s.forked a).Owes handed :=
  h.of_eq (h.truthful.forked a) (by simp [Supervisor.forked, deliveries_append, Event.delivery?])
    rfl

omit [Host σ] in
/-- A child that is reaped is owed, unless it is listed in the foreground. -/
theorem Owes.reaped (h : s.Owes handed) {pid : Int} {status : WaitStatus} {rest : List Child}
    (hpid : status.pid? = some pid) (htruthful : (s.reaped pid status rest).Truthful) :
    (s.reaped pid status rest).Owes handed := by
  obtain ⟨out, waiting, hjournal, hhanded, hcompleted⟩ := h.balance
  refine ⟨htruthful, ?_⟩
  by_cases hforeground : s.jobs.classOf? pid = some .foreground
  · refine ⟨out, waiting, ?_, hhanded, ?_⟩
    · simp [Supervisor.reaped, deliveries_append, Event.delivery?, hforeground, hjournal]
    · simp [Supervisor.reaped, JobTable.record_completed hpid, hforeground, hcompleted]
  · refine ⟨out, waiting ++ [⟨pid, status⟩], ?_, hhanded, ?_⟩
    · simp [Supervisor.reaped, deliveries_append, Event.delivery?, hforeground, hjournal, hpid]
    · simp [Supervisor.reaped, JobTable.record_completed hpid, hforeground, hcompleted,
        Delivery.waiting]

variable {launching : Assignment → Prop}

/-- **No move changes the balance.** -/
theorem Moves.owes (hmove : Moves launching s s') (h : s.Owes handed) : s'.Owes handed := by
  have htruthful := hmove.truthful h.truthful
  cases hmove with
  | drift held =>
      exact foldl_bury (fun _ death h => h.bury death) _ _ (h.setHost _)
  | pipe | write | kill => exact h.setHost _
  | signal signal => exact h.setSignal signal
  | builtin name => exact h.of_eq htruthful (by simp [deliveries_append, Event.delivery?]) rfl
  | @launch a jobs _ _ hregister =>
      obtain ⟨-, rfl⟩ := JobTable.register_eq_some_iff.1 hregister
      exact (h.forked a).of_eq htruthful rfl rfl
  | wait => exact h.of_eq htruthful (by simp [deliveries_append, Event.delivery?]) rfl
  | wake => exact (h.setHost _).bury _
  | reap _ hdecode => exact h.reaped (Ending.decode_ok hdecode) htruthful

/-- Neither does stopping early. -/
theorem Stops.owes {stop : Stop} (hstop : Stops launching s stop s') (h : s.Owes handed) :
    s'.Owes handed := by
  have htruthful := hstop.truthful h.truthful
  cases hstop with
  | refused | childless => exact h
  | lose | struck => exact h.setHost _
  | doze => exact (h.setHost _).bury _
  | relisted => exact h.forked _
  | undecodable =>
      exact h.of_eq htruthful (by simp [dropped, deliveries_append, Event.delivery?]) rfl

/-- A computation of moves leaves the balance as it is. -/
theorem owes_of_comes {α : Type} {body : Supervised σ α}
    (h : ∀ s₀, Ensures (Reaches (fun _ => True) s₀) body (Comes (fun _ => True) s₀)) :
    Ensures (Owes handed) body fun _ => Owes handed :=
  ensures_of_comes h (fun _ _ => Moves.owes) fun _ _ _ => Stops.owes

theorem fork_owes (held : Descriptors) (a : Assignment) :
    Ensures (Owes handed) (fork held a : Supervised σ Int) fun _ => Owes handed := by
  refine fun s hs => ?_
  have hfork := fork_ensures held (fun _ => True) s a s .refl
  rcases hrun : (fork held a).run s with ⟨r, t⟩
  rw [hrun] at hfork
  cases r with
  | ok pid =>
      obtain ⟨u, hu, -, rfl⟩ := hfork
      exact Owes.forked (hu.keeps (fun _ _ => Moves.owes) hs) a
  | error stop => exact hfork.keeps (fun _ _ => Moves.owes) (fun _ _ _ => Stops.owes) hs

omit [Host σ] in
theorem register_owes (pid : Int) (jobClass : JobClass) :
    Ensures (Owes handed) (register pid jobClass : Supervised σ Unit) fun _ => Owes handed := by
  refine Ensures.get_bind fun s hs => ?_
  cases hregister : s.jobs.register pid jobClass with
  | none =>
      refine Ensures.ofThrow ?_
      rintro _ rfl
      exact hs
  | some jobs =>
      obtain ⟨-, rfl⟩ := JobTable.register_eq_some_iff.1 hregister
      exact Ensures.ofSet fun _ _ =>
        hs.of_eq ⟨hs.truthful.distinct, hs.truthful.ends, hs.truthful.attested⟩ rfl rfl

/-- What is handed out is no longer owed; if the computation stops early, nothing is. -/
def OwesAfter (handed : List Job) : Except Stop (List Job) → Supervisor σ → Prop
  | .ok jobs, s => Owes (handed ++ jobs) s
  | .error _, s => Owes handed s

omit [Host σ] in
theorem takeCompleted_owes :
    Ensures (Owes handed) (takeCompleted : Supervised σ (List Job)) (OwesAfter handed) := by
  refine Ensures.get_bind fun s hs => Ensures.set_bind fun _ _ => Ensures.ofPure ?_
  rintro _ rfl
  exact hs.take

/-- A report that fails hands nothing out and keeps what it owes. -/
theorem collectCompleted_owes (held : Descriptors) :
    Ensures (Owes handed) (collectCompleted held : Supervised σ (List Job)) (OwesAfter handed) := by
  refine Ensures.bind _ (owes_of_comes fun _ => block_comes held) ?_ fun _ _ h => h
  refine fun previous => Ensures.restoringMask (Ensures.bind
    (fun _ => Owes handed) (owes_of_comes fun _ => reapTerminated_comes held) ?_ ?_)
  · refine fun _ => takeCompleted_owes.post fun r s hs => ?_
    cases r with
    | ok jobs => exact Owes.setSignal hs _
    | error stop => exact Owes.setSignal hs _
  · exact fun stop s hs => hs.setSignal _

end Keeping

end Supervisor

/-! ### Deeds -/

/-- What can be done to a supervisor. -/
inductive Deed where
  | fork (held : Descriptors) (a : Assignment)
  | register (pid : Int) (jobClass : JobClass)
  /-- A child ends. -/
  | die (pid : Int) (ending : Ending)
  /-- Time passes. -/
  | drift (held : Descriptors)
  | reap (held : Descriptors)
  | reapIfNotified (held : Descriptors)
  | wait (held : Descriptors)
  | take
  | report (held : Descriptors)
  | block (held : Descriptors)
  /-- The mask is put back. -/
  | restore (previous : Bool)

/-- Runs a computation that hands nothing out. -/
def Supervisor.silently {σ α : Type} (body : Supervised σ α) : Supervised σ (List Job) := do
  let _ ← body
  return []

/-- What a deed does, and the jobs that it hands out. -/
def Deed.body {σ : Type} [Host σ] : Deed → Supervised σ (List Job)
  | .fork held a => Supervisor.silently (Supervisor.fork held a)
  | .register pid jobClass => Supervisor.silently (Supervisor.register pid jobClass)
  | .die pid ending => Supervisor.silently (modify fun s => s.bury (pid, ending))
  | .drift held => Supervisor.silently (Supervisor.drift held)
  | .reap held => Supervisor.silently (Supervisor.reapTerminated held)
  | .reapIfNotified held => Supervisor.silently (Supervisor.reapIfNotified held)
  | .wait held => Supervisor.silently (Supervisor.waitForeground held)
  | .take => Supervisor.takeCompleted
  | .report held => Supervisor.collectCompleted held
  | .block held => Supervisor.silently (Supervisor.block held)
  | .restore previous =>
    Supervisor.silently (modify fun s => { s with signal := s.signal.restore previous })

section Body

variable {σ : Type} {handed : List Job}

theorem Supervisor.silently_owes {α : Type} {body : Supervised σ α}
    (h : Ensures (Owes handed) body fun _ => Owes handed) :
    Ensures (Owes handed) (silently body) (OwesAfter handed) := by
  refine Ensures.bind (fun _ => Owes handed) h ?_ fun _ _ hs => hs
  refine fun _ => Ensures.ofPure fun s hs => ?_
  rw [OwesAfter, List.append_nil]
  exact hs

/-- **What a deed hands out is no longer owed, and nothing else is.** -/
theorem Deed.body_owes [Host σ] (deed : Deed) :
    Ensures (Supervisor.Owes handed) (deed.body : Supervised σ (List Job))
      (Supervisor.OwesAfter handed) := by
  cases deed with
  | fork held a => exact Supervisor.silently_owes (Supervisor.fork_owes held a)
  | register pid jobClass => exact Supervisor.silently_owes (Supervisor.register_owes pid jobClass)
  | die pid ending => exact Supervisor.silently_owes (Ensures.ofModify fun s hs => hs.bury _)
  | drift held =>
      exact Supervisor.silently_owes (Ensures.ofModify fun s hs =>
        (@Supervisor.Moves.drift σ _ (fun _ => True) held s).owes hs)
  | reap held =>
      exact Supervisor.silently_owes
        (Supervisor.owes_of_comes fun _ => Supervisor.reapTerminated_comes held)
  | reapIfNotified held =>
      exact Supervisor.silently_owes
        (Supervisor.owes_of_comes fun _ => Supervisor.reapIfNotified_comes held)
  | wait held =>
      exact Supervisor.silently_owes (Supervisor.owes_of_comes fun _ =>
        (Supervisor.waitForeground_comes held).post fun _ _ h => h.1)
  | take => exact Supervisor.takeCompleted_owes
  | report held => exact Supervisor.collectCompleted_owes held
  | block held =>
      exact Supervisor.silently_owes
        (Supervisor.owes_of_comes fun _ => Supervisor.block_comes held)
  | restore previous =>
      exact Supervisor.silently_owes (Ensures.ofModify fun s hs => hs.setSignal _)

end Body

/-- A supervisor, and the jobs that have been handed out, the earliest first. -/
structure Account (σ : Type) where
  supervisor : Supervisor σ
  handed : List Job := []

namespace Account

variable {σ : Type}

/-- Does a deed, and notes the jobs that it hands out if it does not stop early.  Whether it does
makes no difference to what may come next. -/
def perform [Host σ] (x : Account σ) (deed : Deed) : Account σ :=
  let (result, supervisor) := deed.body.run x.supervisor
  { supervisor := supervisor
    handed := x.handed ++
      match result with
      | .ok jobs => jobs
      | .error _ => [] }

/-- What has been handed out balances the supervisor. -/
def Balanced (x : Account σ) : Prop := x.supervisor.Owes x.handed

variable [Host σ]

/-- **Every deed keeps the balance.** -/
theorem Balanced.perform {x : Account σ} (hx : x.Balanced) (deed : Deed) :
    (x.perform deed).Balanced := by
  have hafter := deed.body_owes x.supervisor hx
  unfold Account.perform Balanced
  rcases hbody : deed.body.run x.supervisor with ⟨r, s⟩
  rw [hbody] at hafter
  cases r with
  | ok jobs => exact hafter
  | error stop => simpa [Supervisor.OwesAfter] using hafter

/-- Any number of deeds keeps the balance. -/
theorem Balanced.foldl_perform {x : Account σ} (hx : x.Balanced) (deeds : List Deed) :
    (deeds.foldl Account.perform x).Balanced := by
  induction deeds generalizing x with
  | nil => exact hx
  | cons deed deeds ih => exact ih (hx.perform deed)

/-- **Every completion is handed out exactly once, in order, and as it was.**  After any deeds on a
new supervisor, on any host, the children that were reaped with a status and were not listed in the
foreground then are those that have been handed out, followed by those that are completed; and each
status is that of the last death of its process. -/
theorem balanced_after (host : σ) (deeds : List Deed) :
    let x := deeds.foldl perform { supervisor := { host := host } }
    (∃ out waiting : List Delivery, deliveries x.supervisor.journal = out ++ waiting ∧
      x.handed = out.map Delivery.handed ∧
        x.supervisor.jobs.completed = waiting.map Delivery.waiting) ∧
    ∀ before status listed after,
      x.supervisor.journal = before ++ .reaped status listed :: after →
        ∃ pid ending, lastDeath before pid = some ending ∧ ending.decode pid = .ok status := by
  have hinitial : Balanced ({ supervisor := { host := host } } : Account σ) :=
    ⟨Supervisor.truthful_initial host, [], [], rfl, rfl, rfl⟩
  have hafter := Balanced.foldl_perform hinitial deeds
  exact ⟨hafter.balance, fun before status listed after h =>
    hafter.truthful.attested before _ after h⟩

end Account

end JobShell
