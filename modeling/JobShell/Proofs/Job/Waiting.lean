/-
**When the shell stops waiting.**

The shell waits as long as a foreground job is listed.  So the last thing that it does is to reap the
last child of the foreground, and then it goes on: whether children of the background live is not
asked.  If it does not come back from waiting, it is while a foreground job is listed and none of its
children is dead.

Main definitions:

* `JobShell.Supervisor.Waits` — how waiting for the foreground ends.

Main results:

* `JobShell.JobTable.classOf?_of_last_foreground` — the status after which no foreground job is
  listed is that of a foreground job;
* `JobShell.Supervisor.waitOne_reaps` — one wait call;
* `JobShell.Supervisor.waitForeground_waits` — **the shell waits for the foreground and for nothing
  else.**
-/

import JobShell.Proofs.Job.Supervision

set_option autoImplicit false

namespace JobShell

/-- The status after which no foreground job is listed is that of a foreground job. -/
theorem JobTable.classOf?_of_last_foreground {t : JobTable} {pid : Int} {status : WaitStatus}
    (hpid : status.pid? = some pid) (hbefore : t.hasForeground = true)
    (hafter : (t.record status).2.hasForeground = false) : t.classOf? pid = some .foreground := by
  obtain ⟨job, hjob, hclass⟩ := hasForeground_iff.1 hbefore
  have hgone : job ∉ (t.record status).2.running := by
    intro hstays
    rw [hasForeground_iff.2 ⟨job, hstays, hclass⟩] at hafter
    cases hafter
  cases hlisted : t.classOf? pid with
  | none =>
      rw [record_running_of_none hpid hlisted] at hgone
      exact absurd hjob hgone
  | some c =>
      obtain ⟨released, -, rfl, hperm⟩ := record_running hpid hlisted
      rcases List.mem_cons.1 (hperm.symm.subset hjob) with rfl | hstays
      · rw [hclass]
      · exact absurd hstays hgone

namespace Supervisor

variable {σ : Type} [Host σ] (held : Descriptors)

/-- What a wait call comes to that is made at `s`: a child is reaped that has died by then, or the
shell does not come back while no child is dead.  The job table is as before. -/
def Reaps (s : Supervisor σ) : Except Stop WaitStatus → Supervisor σ → Prop
  | .ok status, t => ∃ (v : Supervisor σ) (pid : Int) (ending : Ending) (rest : List Child),
      v.jobs = s.jobs ∧ v.children.length = s.children.length ∧
        unlinkDead v.children = some ((pid, ending), rest) ∧ ending.decode pid = .ok status ∧
        { t with jobs := (t.jobs.record status).2 } = v.reaped pid status rest
  | .error (.lost _), t => t.jobs = s.jobs ∧ t.hasDead = false
  | .error _, _ => True

theorem sleepUntilDeath_jobs (s : Supervisor σ) :
    Ensures (· = s) (sleepUntilDeath held) fun r t =>
      t.jobs = s.jobs ∧ t.children.length = s.children.length ∧
        (r = .ok ⟨⟩ ∨ (∃ loss, r = .error (.lost loss)) ∧ t.hasDead = false) := by
  refine Ensures.get_bind ?_
  rintro s rfl
  by_cases hdead : s.hasDead = true
  · rw [if_pos hdead]
    refine Ensures.ofPure ?_
    rintro _ rfl
    exact ⟨rfl, rfl, .inl rfl⟩
  · rw [if_neg hdead]
    rw [Bool.not_eq_true] at hdead
    cases Host.await held s.host with
    | ok result =>
        obtain ⟨death, host⟩ := result
        exact Ensures.ofSet fun _ _ => ⟨bury_jobs death, bury_length death, .inl rfl⟩
    | error result =>
        obtain ⟨loss, host⟩ := result
        refine Ensures.set_bind fun _ _ => Ensures.ofThrow ?_
        rintro _ rfl
        exact ⟨rfl, rfl, .inr ⟨⟨loss, rfl⟩, hdead⟩⟩

theorem waitOne_reaps (s : Supervisor σ) : Ensures (· = s) (waitOne held) (Reaps s) := by
  have hjobs := drifted_jobs (s := s) held
  have hlength := drifted_length (s := s) held
  refine Ensures.modify_bind ?_
  rintro _ rfl
  refine Ensures.modify_bind ?_
  rintro _ rfl
  refine Ensures.get_bind ?_
  rintro t rfl
  split_ifs
  · refine Ensures.throw_bind ?_
    rintro _ rfl
    trivial
  · refine Ensures.bind _ (sleepUntilDeath_jobs held _) ?_ ?_
    · rintro ⟨⟩
      refine Ensures.of_eq ?_
      rintro v ⟨hv_jobs, hv_length, -⟩
      -- the sleep has ended with a death, so somebody is dead
      refine Ensures.bind _ (reapDead_unlinks v) ?_ ?_
      · rintro (_ | status)
        · refine Ensures.ofThrow ?_
          rintro _ ⟨rfl, hnone⟩
          exact ⟨hv_jobs.trans hjobs, hasDead_eq_false_iff.2 hnone⟩
        · refine Ensures.ofPure ?_
          rintro w ⟨pid, ending, rest, hdead, hdecode, hw⟩
          exact ⟨v, pid, ending, rest, hv_jobs.trans hjobs, hv_length.trans hlength, hdead, hdecode,
            hw⟩
      · rintro stop w ⟨_, _, _, _, _, _, rfl, _⟩
        trivial
    · rintro stop v ⟨hv_jobs, -, hstop⟩
      rcases hstop with hstop | ⟨⟨loss, hloss⟩, hdead⟩
      · cases hstop
      · obtain rfl := Except.error.inj hloss
        exact ⟨hv_jobs.trans hjobs, hdead⟩

/-- How waiting ends that is begun while a foreground job is listed. -/
def Waits : Except Stop Unit → Supervisor σ → Prop
  | .ok _, t => ∃ status, t.journal.getLast? = some (.reaped status (some .foreground))
  | .error (.lost _), t => t.jobs.hasForeground = true ∧ t.hasDead = false
  | .error _, _ => True

omit [Host σ] in
/-- A wait call that stops ends the waiting. -/
theorem Reaps.waits {s t : Supervisor σ} {stop : Stop} (h : Reaps s (.error stop) t)
    (hs : s.jobs.hasForeground = true) : Waits (.error stop) t := by
  rcases stop with _ | _ | loss
  · trivial
  · trivial
  · obtain ⟨hjobs, hdead⟩ := h
    exact ⟨by rwa [hjobs], hdead⟩

/-- Where no foreground job is listed there is nothing to wait for. -/
theorem waitRounds_done (n : Nat) {s : Supervisor σ} (h : s.jobs.hasForeground = false) :
    Ensures (· = s) (waitRounds held n) (Gives (.ok ⟨⟩) s) := by
  cases n <;>
    · refine Ensures.get_bind ?_
      rintro s rfl
      rw [if_neg (by simp [h])]
      exact Ensures.ofPure fun t ht => ⟨rfl, ht⟩

theorem waitRounds_waits (n : Nat) :
    Ensures (fun s : Supervisor σ => s.jobs.hasForeground = true ∧ s.children.length ≤ n)
      (waitRounds held n) Waits := by
  induction n with
  | zero =>
      refine Ensures.get_bind fun s hs => ?_
      rw [if_pos hs.1]
      refine Ensures.bind _ (waitOne_reaps held s) ?_ ?_
      · rintro status t ⟨v, pid, ending, rest, -, hlength, hdead, -⟩
        -- there is no child that could be dead
        have hshorter := unlinkDead_length hdead
        omega
      · exact fun _ _ ht => ht.waits hs.1
  | succ n ih =>
      refine Ensures.get_bind fun s hs => ?_
      rw [if_pos hs.1]
      refine Ensures.bind _ (waitOne_reaps held s) ?_ ?_
      · intro status
        refine Ensures.modify_bind ?_
        rintro t ⟨v, pid, ending, rest, hjobs, hlength, hdead, hdecode, ht⟩
        rw [ht]
        have hshorter := unlinkDead_length hdead
        cases hleft : (v.reaped pid status rest).jobs.hasForeground with
        | true =>
            refine ih.pre ?_
            rintro _ rfl
            refine ⟨hleft, ?_⟩
            change rest.length ≤ n
            omega
        | false =>
            refine (waitRounds_done held n hleft).post ?_
            rintro _ _ ⟨rfl, rfl⟩
            have hclass : v.jobs.classOf? pid = some .foreground :=
              JobTable.classOf?_of_last_foreground (Ending.decode_ok hdecode)
                (by rw [hjobs]; exact hs.1) hleft
            exact ⟨status, by simp [reaped, hclass]⟩
      · exact fun _ _ ht => ht.waits hs.1

/-- **The shell waits for the foreground and for nothing else.** -/
theorem waitForeground_waits :
    Ensures (fun s : Supervisor σ => s.jobs.hasForeground = true) (waitForeground held) Waits := by
  refine Ensures.get_bind fun s hs => (waitRounds_waits held _).pre ?_
  rintro t rfl
  exact ⟨hs, Nat.le_refl _⟩

end Supervisor

end JobShell
