/-
**The job table at any moment.**

Children are listed, end and are reaped by whichever operation comes first, and what is done to the
job table may fail or stop at an assertion.  Through all of it the table keeps its form: no process
is listed twice, what is listed runs, and what is completed is a background job with a status of its
own process.  A job goes on from one state to the next and never back, and it is lost nowhere but in
the foreground, where it is done with when it ends.

The operations change the table in two ways only, listing a process and booking the end of one, and
all that is said of the table is proved of these two.  What becomes of the jobs is a relation
between all jobs of one moment and all jobs of a later one, those that have been handed out
included: each job of the former has gone on to one of the latter, but for the jobs that were new in
between and those that the foreground is done with.

Main definitions:

* `JobShell.WaitStatus.EndOf` — the statuses of a process that has ended;
* `JobShell.JobTable.Change` — the two changes of a table;
* `JobShell.JobTable.Regular` — the form of a table;
* `JobShell.Job.GoesTo`, `JobShell.Onward` — one job later on, and all of them.

Main results:

* `JobShell.JobTable.Change.regular`, `JobShell.JobTable.Change.onward` — what one change keeps;
* `JobShell.Deed.body_effect` — a deed comes to changes of the table;
* `JobShell.Account.regular_after` — **the table after any deeds, and what they do to it**.
-/

import JobShell.Job.Exercise
import JobShell.Proofs.Job.Delivery
import JobShell.Proofs.Job.Outstanding
import Mathlib.Algebra.Order.Group.Multiset
import Mathlib.Data.Multiset.MapFold

set_option autoImplicit false

namespace JobShell

/-! ### The states of a job -/

/-- A status of a process that has ended: by an exit, or by one of the signals with a name. -/
def WaitStatus.EndOf (pid : Int) (status : WaitStatus) : Prop :=
  (∃ code, status = .exited pid code) ∨ ∃ n, 1 ≤ n ∧ n ≤ 31 ∧ status = .signaled pid n false

theorem WaitStatus.EndOf.pid? {pid : Int} {status : WaitStatus} (h : status.EndOf pid) :
    status.pid? = some pid := by
  rcases h with ⟨code, rfl⟩ | ⟨n, -, -, rfl⟩ <;> rfl

theorem Ending.decode_endOf {e : Ending} {pid : Int} {status : WaitStatus}
    (h : e.decode pid = .ok status) : status.EndOf pid := by
  cases e with
  | exited code =>
      obtain rfl : WaitStatus.exited pid code = status := by simpa [Ending.decode] using h
      exact .inl ⟨code, rfl⟩
  | killed n =>
      by_cases hn : (Signal.name? n).isSome
      · obtain rfl : WaitStatus.signaled pid n false = status := by
          simpa [Ending.decode, hn] using h
        obtain ⟨hlow, hhigh⟩ := Signal.name?_isSome_iff.1 hn
        exact .inr ⟨n, hlow, hhigh, rfl⟩
      · simp [Ending.decode, hn] at h

/-- How far a job has come. -/
def JobState.rank : JobState → Nat
  | .created => 0
  | .running => 1
  | .terminated _ => 2
  | .reaped _ => 3

/-- The status of a job that has ended. -/
def JobState.status? : JobState → Option WaitStatus
  | .created | .running => none
  | .terminated status | .reaped status => some status

/-- A job later on: the same process of the same class, no less far, and with the status that it had
if it had one. -/
structure Job.GoesTo (job later : Job) : Prop where
  pid : later.pid = job.pid
  jobClass : later.jobClass = job.jobClass
  rank : job.state.rank ≤ later.state.rank
  status : ∀ status, job.state.status? = some status → later.state.status? = some status

theorem Job.GoesTo.refl (job : Job) : job.GoesTo job := ⟨rfl, rfl, Nat.le_refl _, fun _ => id⟩

theorem Job.GoesTo.trans {job later last : Job} (h : job.GoesTo later) (h' : later.GoesTo last) :
    job.GoesTo last :=
  ⟨h'.pid.trans h.pid, h'.jobClass.trans h.jobClass, h.rank.trans h'.rank,
    fun status hs => h'.status status (h.status status hs)⟩

instance : IsTrans Job Job.GoesTo := ⟨fun _ _ _ => Job.GoesTo.trans⟩

/-- A job that has no status yet may come to any state that is as far. -/
theorem Job.goesTo_of_running {pid : Int} {c : JobClass} {state later : JobState}
    (hstate : state.rank ≤ 1) (hlater : state.rank ≤ later.rank) :
    Job.GoesTo ⟨pid, c, state⟩ ⟨pid, c, later⟩ := by
  refine ⟨rfl, rfl, hlater, fun status hstatus => ?_⟩
  cases state with
  | created | running => cases hstatus
  | terminated | reaped => simp [JobState.rank] at hstate

/-- A foreground job that is done with. -/
def Job.Settled (job : Job) : Prop :=
  job.jobClass = .foreground ∧ ∃ status, job.state = .reaped status ∧ status.EndOf job.pid

/-- All jobs of one moment and of a later one: some are new in between, the foreground is done with
some, and all have gone on. -/
def Onward (jobs later : Multiset Job) : Prop :=
  ∃ fresh settled : Multiset Job, (∀ job ∈ fresh, job.state = .created) ∧
    (∀ job ∈ settled, job.Settled) ∧ Multiset.Rel Job.GoesTo (jobs + fresh) (later + settled)

/-- Jobs that have gone on, with none of them new or done with. -/
theorem Onward.of_rel {jobs later : Multiset Job} (h : Multiset.Rel Job.GoesTo jobs later) :
    Onward jobs later :=
  ⟨0, 0, by simp, by simp, by simpa using h⟩

theorem goesTo_rel_refl (jobs : Multiset Job) : Multiset.Rel Job.GoesTo jobs jobs :=
  Multiset.rel_refl_of_refl_on fun job _ => .refl job

theorem Onward.refl (jobs : Multiset Job) : Onward jobs jobs := .of_rel (goesTo_rel_refl jobs)

theorem Onward.trans {jobs later last : Multiset Job} (h : Onward jobs later)
    (h' : Onward later last) : Onward jobs last := by
  obtain ⟨fresh, settled, hfresh, hsettled, hrel⟩ := h
  obtain ⟨fresh', settled', hfresh', hsettled', hrel'⟩ := h'
  refine ⟨fresh + fresh', settled' + settled, ?_, ?_, ?_⟩
  · exact fun job hjob => (Multiset.mem_add.1 hjob).elim (hfresh job) (hfresh' job)
  · exact fun job hjob => (Multiset.mem_add.1 hjob).elim (hsettled' job) (hsettled job)
  · -- what is new later goes along at first, what is done with stays as it is
    have hfirst := hrel.add (goesTo_rel_refl fresh')
    have hnext := hrel'.add (goesTo_rel_refl settled)
    rw [add_right_comm later] at hfirst
    rw [← add_assoc, ← add_assoc]
    exact Multiset.Rel.trans Job.GoesTo hfirst hnext

/-- Jobs that stay as they are may be added on both sides. -/
theorem Onward.add_right {jobs later : Multiset Job} (h : Onward jobs later)
    (others : Multiset Job) : Onward (jobs + others) (later + others) := by
  obtain ⟨fresh, settled, hfresh, hsettled, hrel⟩ := h
  refine ⟨fresh, settled, hfresh, hsettled, ?_⟩
  rw [add_right_comm jobs, add_right_comm later]
  exact hrel.add (goesTo_rel_refl others)

/-- One job is new. -/
theorem Onward.new (created : Job) {job : Job} (hcreated : created.state = .created)
    (h : created.GoesTo job) (others : Multiset Job) : Onward others (job ::ₘ others) := by
  refine ⟨{created}, 0, by simpa using hcreated, by simp, ?_⟩
  rw [add_zero, add_comm, Multiset.singleton_add]
  exact .cons h (goesTo_rel_refl others)

/-- One job goes on. -/
theorem Onward.step {job later : Job} (h : job.GoesTo later) (others : Multiset Job) :
    Onward (job ::ₘ others) (later ::ₘ others) :=
  .of_rel (.cons h (goesTo_rel_refl others))

/-- The foreground is done with one job. -/
theorem Onward.settle {job : Job} (later : Job) (h : job.GoesTo later) (hsettled : later.Settled)
    (others : Multiset Job) : Onward (job ::ₘ others) others := by
  refine ⟨0, {later}, by simp, by simpa using hsettled, ?_⟩
  rw [add_zero, add_comm, Multiset.singleton_add]
  exact .cons h (goesTo_rel_refl others)

/-! ### The two changes of a table -/

namespace JobTable

variable {t t' : JobTable} {pid : Int} {c : JobClass} {status : WaitStatus}

/-- What can happen to a table, apart from handing out what is completed: a process is listed, or
the end of one is booked. -/
inductive Change : JobTable → JobTable → Prop
  | list {t t' : JobTable} {pid : Int} {c : JobClass} : t.register pid c = some t' → Change t t'
  | book {t : JobTable} {pid : Int} {status : WaitStatus} :
      status.EndOf pid → Change t (t.record status).2

/-- Any number of changes. -/
abbrev Changes : JobTable → JobTable → Prop := Relation.ReflTransGen Change

/-- The form of a table: no process is listed twice, what is listed runs, and what is completed is a
background job that has ended, with a status of its own process. -/
structure Regular (t : JobTable) : Prop where
  once : (t.running.map (·.pid)).Nodup
  running : ∀ job ∈ t.running, job.state = .running
  completed : ∀ job ∈ t.completed, job.jobClass = .background ∧
    ∃ status, job.state = .terminated status ∧ status.EndOf job.pid

theorem regular_empty : Regular {} := ⟨List.nodup_nil, by simp, by simp⟩

theorem Regular.registered (h : t.Regular) (hregister : t.register pid c = some t') :
    t'.Regular := by
  obtain ⟨hnone, rfl⟩ := register_eq_some_iff.1 hregister
  refine ⟨?_, ?_, h.completed⟩
  · rw [List.map_append, List.map_singleton, ← List.concat_eq_append, List.nodup_concat]
    refine ⟨fun hmem => ?_, h.once⟩
    obtain ⟨job, hjob, hpid⟩ := List.mem_map.1 hmem
    exact classOf?_eq_none_iff.1 hnone job hjob hpid
  · intro job hjob
    rcases List.mem_append.1 hjob with hjob | hjob
    · exact h.running job hjob
    · rw [List.mem_singleton.1 hjob]

/-- Booking a status takes at most one entry out. -/
theorem record_running_sublist (h : status.pid? = some pid) :
    ∃ gone, ((t.record status).2.running ++ gone).Perm t.running := by
  cases hclass : t.classOf? pid with
  | none => exact ⟨[], by rw [record_running_of_none h hclass, List.append_nil]⟩
  | some c =>
      obtain ⟨job, -, -, hperm⟩ := record_running h hclass
      exact ⟨[job], List.perm_append_comm.trans hperm⟩

theorem Regular.booked (h : t.Regular) (hstatus : status.EndOf pid) :
    (t.record status).2.Regular := by
  refine ⟨?_, fun job hjob => h.running job (mem_running_of_record hstatus.pid? hjob), ?_⟩
  · obtain ⟨gone, hperm⟩ := record_running_sublist (t := t) hstatus.pid?
    have hnodup := ((hperm.map (·.pid)).nodup_iff).2 h.once
    rw [List.map_append] at hnodup
    exact hnodup.of_append_left
  · intro job hjob
    rw [record_completed hstatus.pid?] at hjob
    rcases List.mem_append.1 hjob with hjob | hjob
    · exact h.completed job hjob
    · split at hjob
      · cases hjob
      · rw [List.mem_singleton.1 hjob]
        exact ⟨rfl, status, rfl, hstatus⟩

/-- **A change keeps the form.** -/
theorem Change.regular (hchange : Change t t') (h : t.Regular) : t'.Regular := by
  cases hchange with
  | list hregister => exact h.registered hregister
  | book hstatus => exact h.booked hstatus

theorem Changes.regular (hchanges : Changes t t') (h : t.Regular) : t'.Regular := by
  induction hchanges with
  | refl => exact h
  | tail _ hchange ih => exact hchange.regular ih

/-- Handing out what is completed keeps the form. -/
theorem Regular.taken (h : t.Regular) : t.takeCompleted.2.Regular :=
  ⟨h.once, h.running, by simp [takeCompleted]⟩

/-! ### What becomes of the jobs -/

/-- The jobs of a table. -/
def jobs (t : JobTable) : Multiset Job := ↑(t.running ++ t.completed)

theorem onward_register (hregister : t.register pid c = some t') : Onward t.jobs t'.jobs := by
  obtain ⟨-, rfl⟩ := register_eq_some_iff.1 hregister
  have hjobs : jobs { t with running := t.running ++ [⟨pid, c, .running⟩] } =
      ⟨pid, c, .running⟩ ::ₘ t.jobs := by
    rw [jobs, jobs, Multiset.cons_coe, Multiset.coe_eq_coe, List.append_assoc]
    exact List.perm_middle
  rw [hjobs]
  exact .new ⟨pid, c, .created⟩ rfl
    (Job.goesTo_of_running (Nat.zero_le _) (Nat.zero_le _)) _

/-- The jobs after a status has been booked that is completed. -/
theorem jobs_of_completed {running : List Job} {job : Job}
    (hrunning : (t.record status).2.running = running)
    (hcompleted : (t.record status).2.completed = t.completed ++ [job]) :
    (t.record status).2.jobs = job ::ₘ (↑(running ++ t.completed) : Multiset Job) := by
  rw [jobs, hrunning, hcompleted, Multiset.cons_coe, Multiset.coe_eq_coe, ← List.append_assoc]
  exact List.perm_append_singleton job _

theorem onward_record (h : t.Regular) (hstatus : status.EndOf pid) :
    Onward t.jobs (t.record status).2.jobs := by
  have hcompleted := record_completed (t := t) hstatus.pid?
  -- a pid that is not listed gets a job of its own, which is completed; so is a background job, and
  -- a foreground job is settled
  cases hclass : t.classOf? pid with
  | none =>
      rw [jobs_of_completed (record_running_of_none hstatus.pid? hclass)
        (by simpa [hclass] using hcompleted)]
      exact .new ⟨pid, .background, .created⟩ rfl
        (Job.goesTo_of_running (Nat.zero_le _) (Nat.zero_le _)) _
  | some c =>
      obtain ⟨job, rfl, rfl, hperm⟩ := record_running hstatus.pid? hclass
      have hstate : job.state = .running := h.running job (hperm.subset (List.mem_cons_self ..))
      have hjobs : t.jobs =
          job ::ₘ (↑((t.record status).2.running ++ t.completed) : Multiset Job) := by
        rw [jobs, Multiset.cons_coe, Multiset.coe_eq_coe]
        exact (hperm.append_right _).symm
      obtain ⟨pid, c, state⟩ := job
      obtain rfl : state = .running := hstate
      rw [hjobs]
      cases c with
      | background =>
          rw [jobs_of_completed rfl (by simpa [hclass] using hcompleted)]
          exact .step (Job.goesTo_of_running (by simp [JobState.rank]) (by simp [JobState.rank])) _
      | foreground =>
          have hsame : (t.record status).2.completed = t.completed := by
            simpa [hclass] using hcompleted
          rw [jobs, hsame]
          exact .settle ⟨pid, .foreground, .reaped status⟩
            (Job.goesTo_of_running (by simp [JobState.rank]) (by simp [JobState.rank]))
            ⟨rfl, status, rfl, hstatus⟩ _

/-- **In a change, every job goes on.** -/
theorem Change.onward (hchange : Change t t') (h : t.Regular) : Onward t.jobs t'.jobs := by
  cases hchange with
  | list hregister => exact onward_register hregister
  | book hstatus => exact onward_record h hstatus

theorem Changes.onward (hchanges : Changes t t') (h : t.Regular) : Onward t.jobs t'.jobs := by
  induction hchanges with
  | refl => exact .refl _
  | tail hbefore hchange ih =>
      exact ih.trans (hchange.onward (Changes.regular hbefore h))

/-- A completed job, and the same job as it is handed out. -/
def HandsOut (job out : Job) : Prop :=
  ∃ status, job.state = .terminated status ∧ out = { job with state := .reaped status }

theorem HandsOut.goesTo {job out : Job} (h : HandsOut job out) : job.GoesTo out := by
  obtain ⟨status, hstate, rfl⟩ := h
  refine ⟨rfl, rfl, ?_, ?_⟩
  · rw [hstate]
    exact Nat.le_succ 2
  · intro status' hstatus'
    rwa [hstate] at hstatus'

theorem Regular.handsOut_of_mem (h : t.Regular) {job : Job} (hjob : job ∈ t.completed) :
    HandsOut job (handOut job) := by
  obtain ⟨-, status, hstate, -⟩ := h.completed job hjob
  exact ⟨status, hstate, by simp [handOut, hstate]⟩

/-- **What is completed is handed out in its order, each job with its status.** -/
theorem Regular.handsOut (h : t.Regular) :
    List.Forall₂ HandsOut t.completed t.takeCompleted.1 := by
  rw [takeCompleted, List.forall₂_map_right_iff, List.forall₂_same]
  exact fun job => h.handsOut_of_mem

/-- What is handed out goes on too. -/
theorem Regular.onward_taken (h : t.Regular) :
    Onward t.jobs (t.takeCompleted.2.jobs + (t.takeCompleted.1 : Multiset Job)) := by
  have hout : Multiset.Rel Job.GoesTo (t.completed : Multiset Job)
      ((t.completed : Multiset Job).map handOut) :=
    Multiset.rel_map_right.2 <| Multiset.rel_refl_of_refl_on fun job hjob =>
      (h.handsOut_of_mem hjob).goesTo
  have hjobs : t.takeCompleted.2.jobs = (t.running : Multiset Job) := by simp [jobs, takeCompleted]
  rw [hjobs, jobs, ← Multiset.coe_add]
  exact .of_rel ((goesTo_rel_refl _).add hout)

end JobTable

/-! ### Deeds change tables -/

namespace Supervisor

variable {σ : Type} [Host σ] {launching : Assignment → Prop} {s s' : Supervisor σ}

/-- **A move comes to changes of the table.** -/
theorem Moves.changes (hmove : Moves launching s s') : JobTable.Changes s.jobs s'.jobs := by
  cases hmove with
  | drift held => rw [drifted_jobs]
  | pipe | write | kill | signal | builtin | wait => exact .refl
  | launch _ hregister => exact .single (.list hregister)
  | wake => rw [bury_jobs]
  | reap _ hdecode => exact .single (.book (Ending.decode_endOf hdecode))

theorem Reaches.changes (h : Reaches launching s s') : JobTable.Changes s.jobs s'.jobs := by
  induction h with
  | refl => exact .refl
  | tail _ hmove ih => exact ih.trans hmove.changes

theorem Comes.changes {α : Type} {r : Except Stop α} (h : Comes launching s r s') :
    JobTable.Changes s.jobs s'.jobs := by
  cases r with
  | ok a => exact Reaches.changes h
  | error stop =>
      obtain ⟨s₁, s₂, h₁, hstop, h₂⟩ := h
      have hsame := h₂.changes
      rw [hstop.jobs_eq] at hsame
      exact h₁.changes.trans hsame

/-- What a computation does to the table: changes, after which what is completed may be handed
out. -/
def Effect (s : Supervisor σ) : Except Stop (List Job) → Supervisor σ → Prop
  | .ok jobs, t => ∃ u, JobTable.Changes s.jobs u ∧
      (t.jobs = u ∧ jobs = [] ∨ t.jobs = u.takeCompleted.2 ∧ jobs = u.takeCompleted.1)
  | .error _, t => JobTable.Changes s.jobs t.jobs

omit [Host σ] in
theorem silently_effect {α : Type} {body : Supervised σ α}
    (h : Ensures (· = s) body fun _ t => JobTable.Changes s.jobs t.jobs) :
    Ensures (· = s) (silently body) (Effect s) := by
  refine Ensures.bind _ h ?_ fun _ _ ht => ht
  exact fun _ => Ensures.ofPure fun t ht => ⟨t.jobs, ht, .inl ⟨rfl, rfl⟩⟩

theorem silently_comes {α : Type} {body : Supervised σ α}
    (h : ∀ s₀, Ensures (Reaches (fun _ => True) s₀) body (Comes (fun _ => True) s₀)) :
    Ensures (· = s) (silently body) (Effect s) :=
  silently_effect ((ensures_of_reaches (h s)).post fun _ _ ht => Comes.changes ht)

omit [Host σ] in
/-- Listing a process changes the table, or it stops and changes nothing. -/
theorem register_changes (pid : Int) (c : JobClass) :
    Ensures (· = s) (register pid c : Supervised σ Unit)
      fun _ t => JobTable.Changes s.jobs t.jobs := by
  refine Ensures.get_bind ?_
  rintro s rfl
  cases hregister : s.jobs.register pid c with
  | none =>
      refine Ensures.ofThrow ?_
      rintro _ rfl
      exact .refl
  | some jobs => exact Ensures.ofSet fun _ _ => .single (.list hregister)

theorem fork_changes (held : Descriptors) (a : Assignment) :
    Ensures (· = s) (fork held a : Supervised σ Int)
      fun _ t => JobTable.Changes s.jobs t.jobs := by
  refine (ensures_of_reaches (fork_ensures held (fun _ => True) s a)).post ?_
  rintro (stop | pid) t ht
  · exact Comes.changes ht
  · obtain ⟨u, hu, -, rfl⟩ := ht
    have hchanges : JobTable.Changes s.jobs u.jobs := Reaches.changes hu
    exact hchanges

end Supervisor

/-- **A deed comes to changes of the table.** -/
theorem Deed.body_effect {σ : Type} [Host σ] (deed : Deed) (s : Supervisor σ) :
    Ensures (· = s) (deed.body : Supervised σ (List Job)) (Supervisor.Effect s) := by
  cases deed with
  | fork held a => exact Supervisor.silently_effect (Supervisor.fork_changes held a)
  | register pid c => exact Supervisor.silently_effect (Supervisor.register_changes pid c)
  | die pid ending =>
      refine Supervisor.silently_effect (Ensures.ofModify ?_)
      rintro _ rfl
      rw [Supervisor.bury_jobs]
  | drift held =>
      refine Supervisor.silently_effect (Ensures.ofModify ?_)
      rintro s rfl
      exact (@Supervisor.Moves.drift σ _ (fun _ => True) held s).changes
  | reap held => exact Supervisor.silently_comes fun _ => Supervisor.reapTerminated_comes held
  | reapIfNotified held =>
      exact Supervisor.silently_comes fun _ => Supervisor.reapIfNotified_comes held
  | wait held =>
      exact Supervisor.silently_comes fun _ =>
        (Supervisor.waitForeground_comes held).post fun _ _ h => h.1
  | take =>
      refine Ensures.get_bind ?_
      rintro s rfl
      refine Ensures.set_bind ?_
      rintro _ rfl
      -- what was completed is handed out, and the table is emptied of it
      exact Ensures.ofPure fun t ht => ⟨_, .refl, .inr ⟨by rw [ht], rfl⟩⟩
  | report held =>
      have hcomes := @Supervisor.collectCompleted_comes σ _ (fun _ => True) s held
      refine (Supervisor.ensures_of_reaches hcomes).post ?_
      rintro (stop | jobs) t ht
      · have hcomes : Supervisor.Comes _ s (.error stop : Except Stop Unit) t := ht
        exact hcomes.changes
      · obtain ⟨u, hu, hjobs, ht⟩ := ht
        exact ⟨u.jobs, hu.changes, .inr ⟨by rw [ht], hjobs⟩⟩
  | block held => exact Supervisor.silently_comes fun _ => Supervisor.block_comes held
  | restore previous =>
      refine Supervisor.silently_effect (Ensures.ofModify ?_)
      rintro _ rfl
      exact .refl

/-! ### Listing a process that is listed already -/

namespace Supervisor

variable {σ : Type} {s t : Supervisor σ} {pid : Int}

/-- A process that is listed already is not listed again, and nothing changes. -/
theorem register_listed (h : ∃ job ∈ s.jobs.running, job.pid = pid) (c : JobClass) :
    (register pid c : Supervised σ Unit).run s = (.error .assertionFailed, s) := by
  have hnone : s.jobs.register pid c = none := by
    cases hregister : s.jobs.register pid c with
    | none => rfl
    | some jobs =>
        obtain ⟨job, hjob, hpid⟩ := h
        have hfree := JobTable.classOf?_eq_none_iff.1 (JobTable.register_eq_some_iff.1 hregister).1
        exact absurd hpid (hfree job hjob)
  rw [register, run_get_bind, hnone]
  rfl

theorem register_unlisted (h : ∀ job ∈ s.jobs.running, job.pid ≠ pid) (c : JobClass) :
    ((register pid c : Supervised σ Unit).run s).1 = .ok ⟨⟩ := by
  have hsome := (JobTable.register_eq_some_iff (c := c)).2 ⟨JobTable.classOf?_eq_none_iff.2 h, rfl⟩
  rw [register, run_get_bind, hsome]
  rfl

variable [Host σ]

/-- Blocking the signal gives the mask before it, and leaves the table as it is. -/
theorem block_ensures (held : Descriptors) (s : Supervisor σ) :
    Ensures (· = s) (block held)
      (OkOr (fun previous t => previous = s.signal.blocked ∧ t.jobs = s.jobs)
        fun stop _ => stop ≠ .assertionFailed) := by
  have henter : Ensures (· = s) (enterCall held .sigprocmask)
      (OkOr (fun _ t => t = s.drifted held) fun stop _ => stop ≠ .assertionFailed) := by
    refine Ensures.modify_bind ?_
    rintro s rfl
    change Ensures (· = s.drifted held) _ _
    refine Ensures.get_bind ?_
    rintro t rfl
    cases Host.refuses .sigprocmask (s.drifted held).host with
    | some errno => exact Ensures.ofThrow fun _ _ => Stop.noConfusion
    | none => exact Ensures.ofPure fun _ => id
  refine Ensures.bind _ henter ?_ fun _ _ h => h
  refine fun _ => Ensures.get_bind ?_
  rintro t rfl
  refine Ensures.set_bind fun _ _ => Ensures.ofPure ?_
  rintro t rfl
  exact ⟨drifted_blocked held, drifted_jobs held⟩

/-- **An assertion that stops a scope is as if the scope had been empty.**  It stops at a process
that is listed already; the table and the mask are as they were, and nothing else is different from
what it is after a scope in which nothing is done. -/
theorem guarded_register {held : Descriptors} {c : JobClass}
    (h : (guarded held (register pid c)).run s = (.error .assertionFailed, t)) :
    (∃ job ∈ s.jobs.running, job.pid = pid) ∧ t.jobs = s.jobs ∧
      t.signal.blocked = s.signal.blocked ∧
        (guarded held (pure ()) : Supervised σ Unit).run s = (.ok ⟨⟩, t) := by
  have hblock := block_ensures held s s rfl
  rw [guarded, run_bind] at h ⊢
  rcases hrun : (block held).run s with ⟨r, u⟩
  rw [hrun] at h hblock
  cases r with
  | error stop =>
      obtain ⟨hstop, -⟩ := Prod.mk.inj h
      exact absurd (Except.error.inj hstop) hblock
  | ok previous =>
      obtain ⟨rfl, hjobs⟩ := hblock
      -- putting the mask back raises nothing that was not raised in an empty scope
      have hrestored : ∀ v : Supervisor σ, (v.signal.restore s.signal.blocked).blocked =
          s.signal.blocked := by
        intro v
        unfold ChildSignal.restore
        split
        · next hopen => exact hopen.1.symm
        · rfl
      by_cases hlisted : ∃ job ∈ u.jobs.running, job.pid = pid
      · simp only [restoring, ExceptT.run_mk, register_listed hlisted c] at h
        obtain rfl := (Prod.mk.inj h).2
        exact ⟨hjobs ▸ hlisted, hjobs, hrestored u, rfl⟩
      · have hnew : ∀ job ∈ u.jobs.running, job.pid ≠ pid := by simpa using hlisted
        have hok := register_unlisted hnew c
        have herror : ((register pid c : Supervised σ Unit).run u).1 = .error .assertionFailed :=
          (Prod.mk.inj h).1
        rw [hok] at herror
        cases herror

end Supervisor

/-! ### Any deeds -/

/-- The report of a job that has ended. -/
theorem Job.completionMessage_of_reaped {job : Job} {status : WaitStatus}
    (hstate : job.state = .reaped status) :
    job.completionMessage = "Background process " ++ Int.repr job.pid ++ " terminated. (" ++
      status.describe ++ ")" := by
  unfold Job.completionMessage Job.messageNaming
  rw [hstate]

/-- A job that has been handed out: a background job that has ended, with a status of its own
process, which its report tells. -/
def Job.Delivered (job : Job) : Prop :=
  job.jobClass = .background ∧ ∃ status, job.state = .reaped status ∧ status.EndOf job.pid ∧
    ∃ what, job.completionMessage =
        "Background process " ++ Int.repr job.pid ++ " terminated. (" ++ what ++ ")" ∧
      ((∃ code, status = .exited job.pid code ∧ what = "exited with status " ++ Int.repr code) ∨
        ∃ n, status = .signaled job.pid n false ∧ what = "killed by signal " ++ Nat.repr n)

theorem JobTable.Regular.delivered {t : JobTable} (h : t.Regular) :
    ∀ job ∈ t.takeCompleted.1, job.Delivered := by
  intro out hout
  obtain ⟨job, hjob, rfl⟩ := List.mem_map.1 hout
  obtain ⟨hclass, status, hstate, hend⟩ := h.completed job hjob
  obtain ⟨status', hstate', heq⟩ := h.handsOut_of_mem hjob
  obtain rfl : status = status' := by simpa [hstate] using hstate'
  rw [heq]
  refine ⟨hclass, status, rfl, hend, status.describe, Job.completionMessage_of_reaped rfl, ?_⟩
  rcases hend with ⟨code, rfl⟩ | ⟨n, -, -, rfl⟩
  · exact .inl ⟨code, rfl, rfl⟩
  · exact .inr ⟨n, rfl, rfl⟩

namespace Account

variable {σ : Type} {x : Account σ}

/-- All jobs: those that run, those that are completed, and those that have been handed out. -/
def jobs (x : Account σ) : Multiset Job := x.supervisor.jobs.jobs + (x.handed : Multiset Job)

/-- The table has its form, and what has been handed out had ended. -/
structure Regular (x : Account σ) : Prop where
  table : x.supervisor.jobs.Regular
  handed : ∀ job ∈ x.handed, job.Delivered

theorem regular_initial (s : Supervisor σ) : Regular { supervisor := { s with jobs := {} } } :=
  ⟨JobTable.regular_empty, by simp⟩

variable [Host σ]

/-- A deed comes to changes of the table, after which what is completed may be handed out. -/
theorem perform_effect (x : Account σ) (deed : Deed) :
    ∃ u, JobTable.Changes x.supervisor.jobs u ∧
      ((x.perform deed).supervisor.jobs = u ∧ (x.perform deed).handed = x.handed ∨
        (x.perform deed).supervisor.jobs = u.takeCompleted.2 ∧
          (x.perform deed).handed = x.handed ++ u.takeCompleted.1) := by
  have heffect := deed.body_effect x.supervisor x.supervisor rfl
  unfold Account.perform
  rcases hbody : deed.body.run x.supervisor with ⟨r, s⟩
  rw [hbody] at heffect
  cases r with
  | error stop => exact ⟨s.jobs, heffect, .inl ⟨rfl, List.append_nil _⟩⟩
  | ok jobs =>
      obtain ⟨u, hchanges, ⟨hjobs, rfl⟩ | ⟨hjobs, rfl⟩⟩ := heffect
      · exact ⟨u, hchanges, .inl ⟨hjobs, List.append_nil _⟩⟩
      · exact ⟨u, hchanges, .inr ⟨hjobs, rfl⟩⟩

/-- **A deed keeps the form, and every job goes on.** -/
theorem Regular.perform (h : x.Regular) (deed : Deed) :
    (x.perform deed).Regular ∧ Onward x.jobs (x.perform deed).jobs := by
  obtain ⟨u, hchanges, ⟨hjobs, hhanded⟩ | ⟨hjobs, hhanded⟩⟩ := x.perform_effect deed
  · refine ⟨⟨hjobs ▸ hchanges.regular h.table, hhanded ▸ h.handed⟩, ?_⟩
    rw [jobs, jobs, hjobs, hhanded]
    exact (hchanges.onward h.table).add_right _
  · have hu := hchanges.regular h.table
    refine ⟨⟨hjobs ▸ hu.taken, ?_⟩, ?_⟩
    · rw [hhanded]
      exact List.forall_mem_append.2 ⟨h.handed, hu.delivered⟩
    · have honward := ((hchanges.onward h.table).trans hu.onward_taken).add_right
        (x.handed : Multiset Job)
      rw [add_right_comm] at honward
      rw [jobs, jobs, hjobs, hhanded, ← Multiset.coe_add, ← add_assoc]
      exact honward

theorem Regular.foldl_perform (h : x.Regular) (deeds : List Deed) :
    (deeds.foldl Account.perform x).Regular ∧
      Onward x.jobs (deeds.foldl Account.perform x).jobs := by
  induction deeds generalizing x with
  | nil => exact ⟨h, .refl _⟩
  | cons deed deeds ih =>
      obtain ⟨hnext, honward⟩ := h.perform deed
      obtain ⟨hlast, hrest⟩ := ih hnext
      exact ⟨hlast, honward.trans hrest⟩

/-- A process that is listed already is not listed again, and the account stays as it is. -/
theorem perform_register_listed {pid : Int}
    (h : ∃ job ∈ x.supervisor.jobs.running, job.pid = pid) (c : JobClass) :
    x.perform (.register pid c) = x := by
  have hrun : (Deed.register pid c).body.run x.supervisor =
      (.error .assertionFailed, x.supervisor) := by
    rw [Deed.body, Supervisor.silently, run_bind, Supervisor.register_listed h c]
  unfold Account.perform
  rw [hrun]
  simp

/-- **The job table after any deeds, and what they do to it.**  On any host, from any children, and
whatever fails or stops on the way, a table that was new has its form: no process is listed twice,
what is listed runs, and what is completed is a background job that has ended, with a status of its
own process.  Handing out what is completed gives these jobs in their order, each with its status,
and leaves none.  A process that is listed already is not listed again, and nothing changes; in a
scope of its own, the table and the mask are as before, and what is left is what an empty scope
leaves.  From one moment to a later one every job goes on or stays, those that were handed out
included, and none goes back; and a report tells the exit or the signal that ended its process. -/
theorem regular_after (s : Supervisor σ) (deeds : List Deed) :
    let x := deeds.foldl perform { supervisor := { s with jobs := {} } }
    x.supervisor.jobs.Regular ∧
      (∃ out, (Supervisor.takeCompleted : Supervised σ (List Job)).run x.supervisor =
          (.ok out, { x.supervisor with jobs := { x.supervisor.jobs with completed := [] } }) ∧
        List.Forall₂ JobTable.HandsOut x.supervisor.jobs.completed out) ∧
      (∀ pid c, (∃ job ∈ x.supervisor.jobs.running, job.pid = pid) →
        (Supervisor.register pid c : Supervised σ Unit).run x.supervisor =
          (.error .assertionFailed, x.supervisor) ∧ x.perform (.register pid c) = x) ∧
      (∀ held pid c t, (Supervisor.guarded held (Supervisor.register pid c)).run x.supervisor =
          (.error .assertionFailed, t) →
        t.jobs = x.supervisor.jobs ∧ t.signal.blocked = x.supervisor.signal.blocked ∧
          (Supervisor.guarded held (pure ()) : Supervised σ Unit).run x.supervisor =
            (.ok ⟨⟩, t)) ∧
      (∀ later : List Deed, Onward x.jobs (later.foldl perform x).jobs) ∧
      ∀ job ∈ x.handed, job.Delivered := by
  have hx := ((regular_initial s).foldl_perform deeds).1
  refine ⟨hx.table, ⟨_, rfl, hx.table.handsOut⟩, fun pid c h => ?_, fun held pid c t h => ?_,
    fun later => (hx.foldl_perform later).2, hx.handed⟩
  · exact ⟨Supervisor.register_listed h c, perform_register_listed h c⟩
  · exact (Supervisor.guarded_register h).2

/-- One of two dead children is listed, and listed again in vain; the report tells of both. -/
theorem regular_after_relisted :
    let dead : Supervisor Still :=
      { host := ⟨⟩, children := [⟨7, some (.killed 9)⟩, ⟨8, some (.exited 3)⟩] }
    let x := [Deed.register 7 .background].foldl perform { supervisor := { dead with jobs := {} } }
    x.perform (.register 7 .foreground) = x ∧ Onward x.jobs (x.perform (.report {})).jobs ∧
      (x.perform (.report {})).handed =
        [⟨7, .background, .reaped (.signaled 7 9 false)⟩,
          ⟨8, .background, .reaped (.exited 8 3)⟩] := by
  intro dead x
  have h := regular_after dead [.register 7 .background]
  have hlisted : ∃ job ∈ x.supervisor.jobs.running, job.pid = 7 :=
    ⟨_, List.mem_singleton.2 rfl, rfl⟩
  exact ⟨(h.2.2.1 7 .foreground hlisted).2, h.2.2.2.2.1 [.report {}], by decide⟩

end Account

end JobShell
