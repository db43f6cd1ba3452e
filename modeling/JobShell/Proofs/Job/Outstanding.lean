/-
**The jobs that are listed are the children that are outstanding.**

A child is outstanding from its fork until it is reaped.  As long as every status can be decoded,
the running list has the outstanding children and no others, each once and under the class of the
pipeline that it was forked for.  A process id that comes back belongs to a child that has been
listed anew, so a status is booked on the entry of its own child.

What happens in a session is more than the moves of one computation: completed jobs are handed out,
and a session goes on after a computation that stopped early.  The invariant is kept by all of it.

Main definitions:

* `JobShell.outstanding` — the outstanding children, according to a journal;
* `JobShell.Event.Named`, `JobShell.Event.Rightful` — a death that can be decoded, and an event that
  is about the child that it should be about;
* `JobShell.Supervisor.Exact` — the invariant;
* `JobShell.Supervisor.Steps`, `JobShell.Supervisor.Arrives` — what can happen to a supervisor in a
  session, and any number of such steps.

Main results:

* `JobShell.Supervisor.Moves.exact`, `JobShell.Supervisor.Stops.exact` — moves and stops keep the
  invariant;
* `JobShell.Supervisor.Arrives.exact` — so do any number of steps;
* `JobShell.Supervisor.Exact.hasForeground_iff` — a foreground job is listed exactly while a
  foreground child is outstanding.
-/

import JobShell.Proofs.Job.Accounting
import Mathlib.Data.List.Induction
import Mathlib.Data.List.Perm.Basic

set_option autoImplicit false

namespace JobShell

/-! ### Outstanding children -/

/-- The outstanding children after one more event. -/
def Event.update (children : List (Int × JobClass)) : Event → List (Int × JobClass)
  | .forked pid jobClass => children ++ [(pid, jobClass)]
  | .reaped status _ => children.filter fun child => some child.1 ≠ status.pid?
  | .undecodable pid _ => children.filter fun child => child.1 ≠ pid
  | _ => children

/-- The children that have been forked and not reaped, in the order in which they were forked, each
with the class of its pipeline. -/
def outstanding (journal : List Event) : List (Int × JobClass) := journal.foldl Event.update []

theorem outstanding_append (journal : List Event) (e : Event) :
    outstanding (journal ++ [e]) = e.update (outstanding journal) := by
  simp [outstanding]

/-- A death is an exit or comes by a signal with a name. -/
def Event.Named : Event → Prop
  | .died _ (.killed n) => 1 ≤ n ∧ n ≤ 31
  | _ => True

instance : DecidablePred Event.Named := fun e => by
  unfold Event.Named
  split <;> infer_instance

/-- All deaths are exits or come by signals with names. -/
def Named (journal : List Event) : Prop := ∀ e ∈ journal, e.Named

instance : DecidablePred Named := fun journal => by
  unfold Named
  infer_instance

/-- An event is about the child that it should be about: a process id is given to a child only when
no outstanding child has it, and a status is booked on the entry of the child that has ended. -/
def Event.Rightful (before : List Event) : Event → Prop
  | .forked pid _ => ∀ child ∈ outstanding before, child.1 ≠ pid
  | .reaped status listed =>
      ∃ pid jobClass, status.pid? = some pid ∧ (pid, jobClass) ∈ outstanding before ∧
        listed = some jobClass
  | _ => True

/-- The end that a journal has for a process is that of one of its deaths. -/
theorem died_of_lastDeath {journal : List Event} {pid : Int} {ending : Ending}
    (h : lastDeath journal pid = some ending) : Event.died pid ending ∈ journal := by
  induction journal using List.reverseRecOn with
  | nil => simp [lastDeath] at h
  | append_singleton journal e ih =>
      rw [lastDeath_append] at h
      rw [List.mem_append]
      cases e with
      | died pid' ending' =>
          by_cases hpid : pid' = pid
          · obtain rfl : ending' = ending := by simpa [hpid] using h
            exact .inr (by simp [hpid])
          · exact .inl (ih (by simpa [hpid] using h))
      | _ => exact .inl (ih h)

namespace Supervisor

variable {σ : Type}

/-! ### The invariant -/

/-- The running list has the outstanding children, each once and under its class, and the kernel has
the same children. -/
structure Exact (s : Supervisor σ) : Prop where
  truthful : s.Truthful
  children : (outstanding s.journal).map (·.1) = s.children.map (·.pid)
  listed : (s.jobs.running.map fun job => (job.pid, job.jobClass)).Perm (outstanding s.journal)
  rightful : ∀ before e after, s.journal = before ++ e :: after → e.Rightful before

/-- At the start nothing is listed, and there are no children. -/
theorem exact_initial {s : Supervisor σ} (hchildren : s.children = []) (hjobs : s.jobs = {})
    (hjournal : s.journal = []) : s.Exact :=
  ⟨⟨by simp [hchildren], by simp [hchildren], hjournal ▸ attested_nil⟩,
    by simp [hchildren, hjournal, outstanding], by simp [hjobs, hjournal, outstanding],
    by simp [hjournal]⟩

section Facts

variable {s s' : Supervisor σ}

/-- No two outstanding children have the same process id. -/
theorem Exact.distinct (h : s.Exact) : ((outstanding s.journal).map (·.1)).Nodup := by
  rw [h.children]
  exact h.truthful.distinct

theorem Exact.mem_outstanding_iff (h : s.Exact) {pid : Int} {jobClass : JobClass} :
    (pid, jobClass) ∈ outstanding s.journal ↔
      ∃ job ∈ s.jobs.running, job.pid = pid ∧ job.jobClass = jobClass := by
  rw [← h.listed.mem_iff, List.mem_map]
  simp [Prod.ext_iff]

/-- **A foreground job is listed exactly while a foreground child is outstanding.** -/
theorem Exact.hasForeground_iff (h : s.Exact) :
    s.jobs.hasForeground = true ↔ ∃ pid, (pid, .foreground) ∈ outstanding s.journal := by
  rw [JobTable.hasForeground_iff]
  constructor
  · rintro ⟨job, hjob, hclass⟩
    exact ⟨job.pid, h.mem_outstanding_iff.2 ⟨job, hjob, rfl, hclass⟩⟩
  · rintro ⟨pid, hmem⟩
    obtain ⟨job, hjob, -, hclass⟩ := h.mem_outstanding_iff.1 hmem
    exact ⟨job, hjob, hclass⟩

/-- No two listed jobs have the same process id. -/
theorem Exact.once (h : s.Exact) : (s.jobs.running.map (·.pid)).Nodup := by
  have hpids := h.listed.map (·.1)
  rw [List.map_map] at hpids
  exact hpids.nodup_iff.2 h.distinct

/-- An outstanding child is listed under its class. -/
theorem Exact.classOf?_eq (h : s.Exact) {pid : Int} {jobClass : JobClass}
    (hmem : (pid, jobClass) ∈ outstanding s.journal) :
    s.jobs.classOf? pid = some jobClass := by
  obtain ⟨job, hjob, rfl, rfl⟩ := h.mem_outstanding_iff.1 hmem
  exact JobTable.classOf?_of_mem h.once hjob

/-- Every listed job is a child. -/
theorem Exact.listed_children (h : s.Exact) :
    ∀ job ∈ s.jobs.running, job.pid ∈ s.children.map (·.pid) := by
  intro job hjob
  rw [← h.children]
  exact List.mem_map_of_mem (h.mem_outstanding_iff.2 ⟨job, hjob, rfl, rfl⟩)

end Facts

/-- A death that cannot be decoded is in the journal, and it is not named. -/
theorem Truthful.not_named {s : Supervisor σ} (h : s.Truthful) {pid : Int} {ending : Ending}
    {errno : Errno} {rest : List Child}
    (hdead : unlinkDead s.children = some ((pid, ending), rest))
    (hdecode : ending.decode pid = .error errno) : ¬ Named s.journal := by
  obtain ⟨-, n, rfl, hn⟩ := Ending.decode_error_iff.1 hdecode
  have hdied := died_of_lastDeath (h.unlinked hdead).1
  intro hnamed
  exact hn (hnamed _ hdied)

/-! ### Moves and stops keep the invariant -/

section Keeping

variable {s s' : Supervisor σ}

/-- The invariant depends on the journal, the running list and the process ids alone. -/
theorem Exact.of_eq (h : s.Exact) (htruthful : s'.Truthful) (hjournal : s'.journal = s.journal)
    (hrunning : s'.jobs.running = s.jobs.running)
    (hpids : s'.children.map (·.pid) = s.children.map (·.pid)) : s'.Exact :=
  ⟨htruthful, by rw [hjournal, hpids]; exact h.children,
    by rw [hjournal, hrunning]; exact h.listed, by rw [hjournal]; exact h.rightful⟩

theorem Exact.setHost (h : s.Exact) (host : σ) : Exact { s with host := host } :=
  h.of_eq ⟨h.truthful.distinct, h.truthful.ends, h.truthful.attested⟩ rfl rfl rfl

theorem Exact.setSignal (h : s.Exact) (signal : ChildSignal) :
    Exact { s with signal := signal } :=
  h.of_eq ⟨h.truthful.distinct, h.truthful.ends, h.truthful.attested⟩ rfl rfl rfl

/-- An event that is neither a fork nor a reap leaves the outstanding children as they are. -/
theorem Exact.note (h : s.Exact) {e : Event} (htruthful : s'.Truthful)
    (hjournal : s'.journal = s.journal ++ [e]) (hupdate : ∀ children, e.update children = children)
    (he : e.Rightful s.journal) (hrunning : s'.jobs.running = s.jobs.running)
    (hpids : s'.children.map (·.pid) = s.children.map (·.pid)) : s'.Exact := by
  have houtstanding : outstanding s'.journal = outstanding s.journal := by
    rw [hjournal, outstanding_append, hupdate]
  refine ⟨htruthful, by rw [houtstanding, hpids]; exact h.children,
    by rw [houtstanding, hrunning]; exact h.listed, ?_⟩
  rw [hjournal]
  exact forall_events_append h.rightful he

theorem Exact.bury (h : s.Exact) (death : Int × Ending) : (s.bury death).Exact := by
  have htruthful := h.truthful.bury death
  have hpids := bury_pids (s := s) death
  have hjobs := bury_jobs (s := s) death
  by_cases hliving : (s.children.any fun c => c.pid = death.1 ∧ c.ending = none) = true
  · have hjournal : (s.bury death).journal = s.journal ++ [.died death.1 death.2] := by
      rw [Supervisor.bury, if_pos hliving]
    exact h.note htruthful hjournal (fun _ => rfl) trivial (by rw [hjobs]) hpids
  · have hnothing : s.bury death = s := by rw [Supervisor.bury, if_neg hliving]
    rwa [hnothing]

/-- A child that is reaped is outstanding no longer, and its entry is gone. -/
theorem Exact.reaped (h : s.Exact) {pid : Int} {ending : Ending} {status : WaitStatus}
    {rest : List Child} (hdead : unlinkDead s.children = some ((pid, ending), rest))
    (hpid : status.pid? = some pid) (htruthful : (s.reaped pid status rest).Truthful) :
    (s.reaped pid status rest).Exact := by
  obtain ⟨⟨pid', jobClass⟩, hmem, heq⟩ : ∃ child ∈ outstanding s.journal, child.1 = pid := by
    rw [← List.mem_map, h.children]
    exact List.mem_map_of_mem (mem_of_unlinkDead hdead)
  obtain rfl : pid' = pid := heq
  have hclass := h.classOf?_eq hmem
  have hupdate : outstanding (s.reaped pid' status rest).journal =
      (outstanding s.journal).filter fun child => child.1 ≠ pid' := by
    simp [Supervisor.reaped, outstanding_append, Event.update, hpid]
  refine ⟨htruthful, ?_, ?_, ?_⟩
  · -- the process id is that of one child only, so no other child is taken out
    have hrest := unlinkDead_eq_filter h.truthful.distinct hdead
    have hfilter : ((outstanding s.journal).map (·.1)).filter (· ≠ pid') = rest.map (·.pid) := by
      rw [h.children, hrest, List.filter_map]
      rfl
    rw [hupdate, Supervisor.reaped, ← hfilter, List.filter_map]
    rfl
  · have hrunning := (JobTable.record_running_perm hpid h.once).map fun job =>
      (job.pid, job.jobClass)
    have hfilter := h.listed.filter fun child => child.1 ≠ pid'
    rw [List.filter_map] at hfilter
    rw [hupdate]
    exact hrunning.trans hfilter
  · exact forall_events_append h.rightful ⟨pid', jobClass, hpid, hmem, hclass⟩

variable [Host σ] {launching : Assignment → Prop}

/-- A child that is launched is outstanding, and it is listed. -/
theorem Exact.launched (h : s.Exact) {a : Assignment} {jobs : JobTable}
    (hregister : s.jobs.register s.choosePid a.jobClass = some jobs)
    (htruthful : Truthful { s.forked a with jobs := jobs }) :
    Exact { s.forked a with jobs := jobs } := by
  obtain ⟨-, rfl⟩ := JobTable.register_eq_some_iff.1 hregister
  have hupdate : outstanding (s.forked a).journal =
      outstanding s.journal ++ [(s.choosePid, a.jobClass)] := by
    simp [forked, outstanding_append, Event.update]
  refine ⟨htruthful, ?_, ?_, ?_⟩
  · change (outstanding (s.forked a).journal).map (·.1) = _
    rw [hupdate, List.map_append, h.children]
    simp [forked]
  · change List.Perm _ (outstanding (s.forked a).journal)
    rw [hupdate, List.map_append]
    exact h.listed.append (.refl _)
  · refine forall_events_append h.rightful fun child hchild heq => ?_
    have hpid : s.choosePid ∈ s.children.map (·.pid) := by
      rw [← h.children, ← heq]
      exact List.mem_map_of_mem hchild
    exact choosePid_fresh s hpid

/-- **Every move keeps the list exact.** -/
theorem Moves.exact (hmove : Moves launching s s') (h : s.Exact) : s'.Exact := by
  have htruthful := hmove.truthful h.truthful
  cases hmove with
  | drift held => exact foldl_bury (fun _ death h => h.bury death) _ _ (h.setHost _)
  | pipe | write | kill => exact h.setHost _
  | signal signal => exact h.setSignal signal
  | builtin name => exact h.note htruthful rfl (fun _ => rfl) trivial rfl rfl
  | wait => exact h.note htruthful rfl (fun _ => rfl) trivial rfl rfl
  | launch _ hregister => exact h.launched hregister htruthful
  | wake => exact (h.setHost _).bury _
  | reap hdead hdecode => exact h.reaped hdead (Ending.decode_ok hdecode) htruthful

/-- **So does stopping early**, if all deaths can be decoded; and no new child is listed already. -/
theorem Stops.exact {stop : Stop} (hstop : Stops launching s stop s') (h : s.Exact)
    (hnamed : Named s'.journal) : s'.Exact ∧ stop ≠ .assertionFailed := by
  cases hstop with
  | refused | childless => exact ⟨h, by simp⟩
  | lose | struck => exact ⟨h.setHost _, by simp⟩
  | doze => exact ⟨(h.setHost _).bury _, by simp⟩
  | relisted _ hregister =>
      exact absurd hregister (register_choosePid_ne_none h.listed_children _)
  | undecodable hdead hdecode =>
      exact absurd (fun e he => hnamed e (List.mem_append_left _ he))
        (h.truthful.not_named hdead hdecode)

/-- Stopping early leaves the job table as it is. -/
theorem Stops.jobs_eq {stop : Stop} (hstop : Stops launching s stop s') : s'.jobs = s.jobs := by
  cases hstop with
  | refused | undecodable | childless | lose | relisted | struck => rfl
  | doze => rw [bury_jobs]

end Keeping

/-! ### Steps of a session -/

/-- What can happen to a supervisor in a session: a move, a stop after which the session goes on,
and the handing out of what is completed. -/
inductive Steps [Host σ] (launching : Assignment → Prop) : Supervisor σ → Supervisor σ → Prop where
  | move {s t : Supervisor σ} : Moves launching s t → Steps launching s t
  | stop {s t : Supervisor σ} {stop : Stop} : Stops launching s stop t → Steps launching s t
  | take (s : Supervisor σ) : Steps launching s { s with jobs := s.jobs.takeCompleted.2 }

section Steps

variable [Host σ] {launching : Assignment → Prop} {s s' : Supervisor σ}

/-- What is in the journal stays there. -/
theorem Steps.mem_journal (hstep : Steps launching s s') {e : Event} (he : e ∈ s.journal) :
    e ∈ s'.journal := by
  cases hstep with
  | move hmove => exact hmove.mem_journal he
  | stop hstop => exact hstop.mem_journal he
  | take => exact he

theorem Steps.exact (hstep : Steps launching s s') (h : s.Exact) (hnamed : Named s'.journal) :
    s'.Exact := by
  cases hstep with
  | move hmove => exact hmove.exact h
  | stop hstop => exact (hstop.exact h hnamed).1
  | take =>
      exact h.of_eq ⟨h.truthful.distinct, h.truthful.ends, h.truthful.attested⟩ rfl rfl rfl

/-- No foreground job is listed as long as only background jobs are launched. -/
theorem Steps.background (hstep : Steps launching s s')
    (hlaunching : ∀ a, launching a → a.jobClass = .background) (h : s.jobs.hasForeground = false) :
    s'.jobs.hasForeground = false := by
  cases hstep with
  | move hmove => exact (hmove.mono hlaunching).background h
  | stop hstop => rwa [hstop.jobs_eq]
  | take => exact h

/-- Any number of steps. -/
abbrev Arrives (launching : Assignment → Prop) : Supervisor σ → Supervisor σ → Prop :=
  Relation.ReflTransGen (Steps launching)

theorem Arrives.background (h : Arrives launching s s')
    (hlaunching : ∀ a, launching a → a.jobClass = .background) (hs : s.jobs.hasForeground = false) :
    s'.jobs.hasForeground = false := by
  induction h with
  | refl => exact hs
  | tail _ hstep ih => exact hstep.background hlaunching ih

theorem Arrives.named (h : Arrives launching s s') (hnamed : Named s'.journal) :
    Named s.journal := by
  induction h with
  | refl => exact hnamed
  | tail _ hstep ih => exact ih fun e he => hnamed e (hstep.mem_journal he)

/-- **Whatever happens, the list is exact**, if all deaths can be decoded. -/
theorem Arrives.exact (h : Arrives launching s s') (hs : s.Exact) (hnamed : Named s'.journal) :
    s'.Exact := by
  induction h with
  | refl => exact hs
  | tail _ hstep ih =>
      exact hstep.exact (ih fun e he => hnamed e (hstep.mem_journal he)) hnamed

end Steps

end Supervisor

end JobShell
