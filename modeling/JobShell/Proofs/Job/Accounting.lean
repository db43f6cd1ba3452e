/-
**Every listed job is a child.**

As long as every status can be decoded, the jobs that are listed as running are unreaped children,
each listed once.  So while a foreground job is listed there is a child to wait for, and a new child
is never listed already.  The host decides when children end; if it ends all of them, no wait call
waits in vain.

Main definitions:

* `JobShell.Supervisor.Accounted` — the invariant;
* `JobShell.livingPids` — the children that have not ended;
* `JobShell.Mortal` — a host on which every child ends.

Main results:

* `JobShell.Supervisor.Moves.accounted` — every move keeps the invariant;
* `JobShell.Supervisor.Stops.of_accounted` — what can stop a supervisor whose jobs are accounted
  for;
* `JobShell.Supervisor.Moves.linked`, `JobShell.Supervisor.Stops.not_linked` — on a host on which
  every child ends nothing is lost.
-/

import JobShell.Proofs.Job.Children

set_option autoImplicit false

namespace JobShell

namespace Supervisor

variable {σ : Type}

/-- Every listed job is a child, listed once, and no status has been lost. -/
structure Accounted (s : Supervisor σ) : Prop where
  truthful : s.Truthful
  once : (s.jobs.running.map (·.pid)).Nodup
  children : ∀ job ∈ s.jobs.running, job.pid ∈ s.children.map (·.pid)
  decoded : ∀ pid ending, .undecodable pid ending ∉ s.journal

/-- At the start there are no jobs to account for. -/
theorem accounted_initial (host : σ) : Accounted ({ host := host } : Supervisor σ) :=
  ⟨truthful_initial host, by simp, by simp, by simp⟩

section Keeping

variable {s s' : Supervisor σ}

/-- The invariant depends on the jobs, the process ids and the journal alone. -/
theorem Accounted.of_eq (h : s.Accounted) (htruthful : s'.Truthful) (hjobs : s'.jobs = s.jobs)
    (hpids : s'.children.map (·.pid) = s.children.map (·.pid))
    (hjournal : ∀ pid ending, .undecodable pid ending ∈ s'.journal →
      .undecodable pid ending ∈ s.journal) : s'.Accounted :=
  ⟨htruthful, by rw [hjobs]; exact h.once, by rw [hjobs, hpids]; exact h.children,
    fun pid ending hmem => h.decoded pid ending (hjournal pid ending hmem)⟩

theorem Accounted.bury (h : s.Accounted) (death : Int × Ending) : (s.bury death).Accounted := by
  refine h.of_eq (h.truthful.bury death) (bury_jobs death) (bury_pids death) ?_
  unfold Supervisor.bury
  split <;> simp

theorem Accounted.setHost (h : s.Accounted) (host : σ) : Accounted { s with host := host } :=
  h.of_eq ⟨h.truthful.distinct, h.truthful.ends, h.truthful.attested⟩ rfl rfl fun _ _ => id

/-- While a foreground job is listed there is a child. -/
theorem Accounted.children_ne_nil (h : s.Accounted) (hforeground : s.jobs.hasForeground = true) :
    s.children ≠ [] := by
  obtain ⟨job, hjob, -⟩ := JobTable.hasForeground_iff.1 hforeground
  intro hnil
  simpa [hnil] using h.children job hjob

/-- A process that is reaped leaves the list, and the other jobs are still children. -/
theorem Accounted.reaped (h : s.Accounted) {pid : Int} {ending : Ending} {status : WaitStatus}
    {rest : List Child} (hdead : unlinkDead s.children = some ((pid, ending), rest))
    (hpid : status.pid? = some pid) (htruthful : (s.reaped pid status rest).Truthful) :
    (s.reaped pid status rest).Accounted := by
  have hdecoded : ∀ pid' ending', Event.undecodable pid' ending' ∉
      (s.reaped pid status rest).journal := by
    intro pid' ending'
    simpa [Supervisor.reaped] using h.decoded pid' ending'
  have hrunning := JobTable.record_running_perm hpid h.once
  refine ⟨htruthful, ?_, fun job hjob => ?_, hdecoded⟩
  · exact ((hrunning.map (·.pid)).nodup_iff).2 ((List.filter_sublist.map _).nodup h.once)
  · obtain ⟨hjob, hne⟩ := (JobTable.mem_running_record_iff hpid h.once).1 hjob
    obtain ⟨c, hc, hpid⟩ := List.mem_map.1 (h.children job hjob)
    change job.pid ∈ rest.map (·.pid)
    rw [unlinkDead_eq_filter h.truthful.distinct hdead]
    exact List.mem_map.2 ⟨c, List.mem_filter.2 ⟨hc, by simpa [hpid] using hne⟩, hpid⟩

variable [Host σ] {launching : Assignment → Prop}

/-- A new child is not listed yet, if every listed job is a child. -/
theorem classOf?_choosePid (h : ∀ job ∈ s.jobs.running, job.pid ∈ s.children.map (·.pid)) :
    s.jobs.classOf? s.choosePid = none := by
  rw [JobTable.classOf?_eq_none_iff]
  intro job hjob heq
  exact choosePid_fresh s (heq ▸ h job hjob)

/-- So a new child can be listed. -/
theorem register_choosePid_ne_none
    (h : ∀ job ∈ s.jobs.running, job.pid ∈ s.children.map (·.pid)) (jobClass : JobClass) :
    s.jobs.register s.choosePid jobClass ≠ none := by
  have hfresh := (JobTable.register_eq_some_iff (c := jobClass)).2 ⟨classOf?_choosePid h, rfl⟩
  rw [hfresh]
  exact Option.some_ne_none _

/-- A child that is launched is listed, and no other job is. -/
theorem Accounted.launched (h : s.Accounted) {a : Assignment} {jobs : JobTable}
    (hregister : s.jobs.register s.choosePid a.jobClass = some jobs)
    (htruthful : Truthful { s.forked a with jobs := jobs }) :
    Accounted { s.forked a with jobs := jobs } := by
  obtain ⟨hfresh, rfl⟩ := JobTable.register_eq_some_iff.1 hregister
  rw [JobTable.classOf?_eq_none_iff] at hfresh
  refine ⟨htruthful, ?_, ?_, ?_⟩
  · rw [List.map_append, List.nodup_append]
    refine ⟨h.once, by simp, ?_⟩
    rintro pid hpid pid' hpid' rfl
    obtain ⟨job, hjob, rfl⟩ := List.mem_map.1 hpid
    exact hfresh job hjob (by simpa using hpid')
  · intro job hjob
    simp only [forked, List.map_append, List.map_cons, List.map_nil, List.mem_append,
      List.mem_singleton]
    rcases List.mem_append.1 hjob with hjob | hjob
    · exact .inl (h.children job hjob)
    · exact .inr (by rw [List.mem_singleton.1 hjob])
  · intro pid ending
    simpa [forked] using h.decoded pid ending

theorem Accounted.drifted (h : s.Accounted) (held : Descriptors) : (s.drifted held).Accounted :=
  foldl_bury (fun _ death h => h.bury death) _ _ (h.setHost _)

/-- **Every move keeps the jobs accounted for.** -/
theorem Moves.accounted (hmove : Moves launching s s') (h : s.Accounted) : s'.Accounted := by
  have htruthful := hmove.truthful h.truthful
  cases hmove with
  | drift held => exact h.drifted held
  | pipe | write | kill => exact h.setHost _
  | signal => exact h.of_eq htruthful rfl rfl fun _ _ => id
  | builtin | wait => exact h.of_eq htruthful rfl rfl (by simp)
  | launch _ hregister => exact h.launched hregister htruthful
  | wake => exact (h.setHost _).bury _
  | reap hdead hdecode => exact h.reaped hdead (Ending.decode_ok hdecode) htruthful

/-- **What can stop a supervisor whose jobs are accounted for**, if the host lets no call fail: a
child that was killed by a signal without a name, or the loss of the shell. -/
theorem Stops.of_accounted {stop : Stop} (hstop : Stops launching s stop s') (h : s.Accounted)
    (hrefuses : ∀ call (host : σ), Host.refuses call host = none) :
    (∃ pid n, stop = .failed ⟨.waitpid, Errno.invalid⟩ ∧
      .undecodable pid (.killed n) ∈ s'.journal ∧ ¬ (1 ≤ n ∧ n ≤ 31)) ∨ ∃ loss, stop = .lost loss := by
  cases hstop with
  | refused hrefused => simp [hrefuses] at hrefused
  | @undecodable pid ending errno rest _ hdead hdecode =>
      obtain ⟨rfl, n, rfl, hn⟩ := Ending.decode_error_iff.1 hdecode
      exact .inl ⟨pid, n, rfl, by simp [dropped], hn⟩
  | childless hforeground hnil => exact absurd hnil (h.children_ne_nil hforeground)
  | lose | doze | struck => exact .inr ⟨_, rfl⟩
  | relisted _ hregister => exact absurd hregister (register_choosePid_ne_none h.children _)

end Keeping

/-! ### The journal and the foreground -/

section Journal

variable [Host σ] {launching : Assignment → Prop} {s s' : Supervisor σ}

omit [Host σ] in
theorem mem_journal_bury {e : Event} (death : Int × Ending) (he : e ∈ s.journal) :
    e ∈ (s.bury death).journal := by
  unfold bury
  split
  · exact List.mem_append_left _ he
  · exact he

/-- What is in the journal stays there. -/
theorem Moves.mem_journal (hmove : Moves launching s s') {e : Event} (he : e ∈ s.journal) :
    e ∈ s'.journal := by
  cases hmove with
  | drift held =>
      exact foldl_bury (I := fun t => e ∈ t.journal) (fun _ death h => mem_journal_bury death h) _ _ he
  | pipe | write | kill | signal => exact he
  | builtin | launch | wait | reap => exact List.mem_append_left _ he
  | wake => exact mem_journal_bury _ he

/-- It stays there when a computation stops early, too. -/
theorem Stops.mem_journal {stop : Stop} (hstop : Stops launching s stop s') {e : Event}
    (he : e ∈ s.journal) : e ∈ s'.journal := by
  cases hstop with
  | refused | childless | lose | struck => exact he
  | undecodable | relisted => exact List.mem_append_left _ he
  | doze => exact mem_journal_bury _ he

/-- No foreground job is listed as long as only background jobs are launched. -/
theorem Moves.background (hmove : Moves (·.jobClass = .background) s s')
    (h : s.jobs.hasForeground = false) : s'.jobs.hasForeground = false := by
  have hiff : ∀ t : JobTable, t.hasForeground = false ↔
      ∀ job ∈ t.running, job.jobClass ≠ .foreground := by
    intro t
    simp [JobTable.hasForeground]
  cases hmove with
  | drift held => rwa [drifted_jobs]
  | pipe | write | kill | signal | builtin | wait => exact h
  | launch hclass hregister =>
      obtain ⟨-, rfl⟩ := JobTable.register_eq_some_iff.1 hregister
      rw [hiff] at h ⊢
      intro job hjob
      rcases List.mem_append.1 hjob with hjob | hjob
      · exact h job hjob
      · rw [List.mem_singleton.1 hjob]
        simp [hclass]
  | wake => rwa [bury_jobs]
  | reap hdead hdecode =>
      rw [hiff] at h ⊢
      exact fun job hjob =>
        h job (JobTable.mem_running_of_record (Ending.decode_ok hdecode) hjob)

end Journal

end Supervisor

/-! ### Hosts on which every child ends -/

/-- The children that have not ended. -/
def livingPids (children : List Child) : List Int :=
  (children.filter (·.ending.isNone)).map (·.pid)

/-- A host on which every child ends: it knows which children live, a wait call is over when one of
them has ended, and no signal of the shell to itself does harm. -/
structure Mortal {σ : Type} [Host σ] (living : σ → List Int → Prop) : Prop where
  start : ∀ {host pids} pid a, living host pids → pid ∉ pids →
    living (Host.start pid a host) (pids ++ [pid])
  newPipe : ∀ {host pids}, living host pids → living (Host.newPipe host).2 pids
  write : ∀ {host pids} file text, living host pids → living (Host.write file text host) pids
  kill : ∀ {host pids pid signal self host'}, living host pids →
    Host.kill pid signal host = .ok (self, host') →
      living host' pids ∧ (self = true → Signal.loss? signal = none)
  drift : ∀ {host pids} held, living host pids →
    living (Host.drift held host).2
      (pids.filter (· ∉ (Host.drift held host).1.map (·.1)))
  await : ∀ {host pids} held, living host pids → pids ≠ [] →
    ∃ death host', Host.await held host = .ok (death, host') ∧ death.1 ∈ pids ∧
      living host' (pids.filter (· ≠ death.1))

namespace Supervisor

section Living

variable {σ : Type} {s s' : Supervisor σ}

/-- A death takes the process from those that live. -/
theorem bury_living (death : Int × Ending) :
    livingPids (s.bury death).children = (livingPids s.children).filter (· ≠ death.1) := by
  have hmap : ∀ children : List Child, livingPids (children.map fun c =>
      if c.pid = death.1 ∧ c.ending = none then { c with ending := some death.2 } else c) =
        (livingPids children).filter (· ≠ death.1) := by
    intro children
    induction children with
    | nil => rfl
    | cons c children ih =>
        obtain ⟨pid, ending⟩ := c
        unfold livingPids at ih ⊢
        cases ending with
        | some ending => simpa using ih
        | none =>
            by_cases hpid : pid = death.1
            · simpa [hpid] using ih
            · simpa [hpid] using ih
  unfold bury
  split
  · exact hmap s.children
  · next hnone =>
      refine (List.filter_eq_self.2 fun pid hpid => ?_).symm
      obtain ⟨c, hc, rfl⟩ := List.mem_map.1 hpid
      obtain ⟨hc, hending⟩ := List.mem_filter.1 hc
      rw [decide_eq_true_iff]
      intro heq
      exact hnone (List.any_eq_true.2 ⟨c, hc, by simpa [heq] using hending⟩)

theorem foldl_bury_living (deaths : List (Int × Ending)) :
    livingPids (deaths.foldl (fun s death => s.bury death) s).children =
      (livingPids s.children).filter (· ∉ deaths.map (·.1)) := by
  induction deaths generalizing s with
  | nil => simp
  | cons death deaths ih =>
      rw [List.foldl_cons, ih, bury_living, List.filter_filter]
      refine List.filter_congr fun pid _ => ?_
      simp only [List.map_cons, List.mem_cons, not_or, Bool.decide_and]
      exact Bool.and_comm _ _

/-- After the death of a living child some child is dead. -/
theorem bury_hasDead {death : Int × Ending} (h : death.1 ∈ livingPids s.children) :
    (s.bury death).hasDead = true := by
  obtain ⟨c, hc, hpid⟩ := List.mem_map.1 h
  obtain ⟨hc, hending⟩ := List.mem_filter.1 hc
  have hliving : c.pid = death.1 ∧ c.ending = none := ⟨hpid, by simpa using hending⟩
  rw [bury, if_pos (List.any_eq_true.2 ⟨c, hc, by simpa using hliving⟩)]
  refine List.any_eq_true.2 ⟨{ c with ending := some death.2 }, List.mem_map.2 ⟨c, hc, ?_⟩, rfl⟩
  rw [if_pos hliving]

/-- A child that is unlinked was dead. -/
theorem livingPids_of_unlinkDead {children rest : List Child} {death : Int × Ending}
    (h : unlinkDead children = some (death, rest)) : livingPids rest = livingPids children := by
  obtain ⟨before, after, rfl, rfl, -⟩ := unlinkDead_eq_some h
  simp [livingPids]

theorem livingPids_ne_nil (hchildren : s.children ≠ []) (hdead : s.hasDead = false) :
    livingPids s.children ≠ [] := by
  rw [hasDead_eq_false_iff, unlinkDead_eq_none_iff] at hdead
  obtain ⟨c, children, hcons⟩ := List.exists_cons_of_ne_nil hchildren
  have hc := hdead c (by simp [hcons])
  simp [livingPids, hcons, hc]

variable [Host σ] {launching : Assignment → Prop} {living : σ → List Int → Prop}

/-- The host and the kernel agree on which children live. -/
def Linked (living : σ → List Int → Prop) (s : Supervisor σ) : Prop :=
  living s.host (livingPids s.children)

/-- **Every move keeps the host and the kernel in agreement.** -/
theorem Moves.linked (hmortal : Mortal living) (hmove : Moves launching s s')
    (h : s.Linked living) : s'.Linked living := by
  unfold Linked at h ⊢
  cases hmove with
  | drift held =>
      rw [drifted_host, drifted, foldl_bury_living]
      exact hmortal.drift held h
  | pipe => exact hmortal.newPipe h
  | write file text => exact hmortal.write file text h
  | kill hkill => exact (hmortal.kill h hkill).1
  | signal | builtin | wait => exact h
  | @launch a jobs =>
      have hpids : livingPids (s.children ++ [{ pid := s.choosePid }]) =
          livingPids s.children ++ [s.choosePid] := by
        simp [livingPids]
      change living (Host.start s.choosePid a s.host)
        (livingPids (s.children ++ [{ pid := s.choosePid }]))
      rw [hpids]
      refine hmortal.start _ a h fun hmem => choosePid_fresh s ?_
      obtain ⟨c, hc, hpid⟩ := List.mem_map.1 hmem
      exact List.mem_map.2 ⟨c, (List.mem_filter.1 hc).1, hpid⟩
  | @wake held death host _ hchildren hdead hawait =>
      -- somebody is alive, so the host has a death to tell of and is not stuck
      obtain ⟨death', host', hawait', -, hliving⟩ :=
        hmortal.await held h (livingPids_ne_nil hchildren hdead)
      obtain ⟨rfl, rfl⟩ : death = death' ∧ host = host' := by
        simpa [hawait] using hawait'
      rw [bury_host, bury_living]
      exact hliving
  | @reap pid ending status rest _ hunlink =>
      change living s.host (livingPids rest)
      rwa [livingPids_of_unlinkDead hunlink]

/-- **On a host on which every child ends the shell is not lost.** -/
theorem Stops.not_linked (hmortal : Mortal living) {loss : Loss}
    (hstop : Stops launching s (.lost loss) s') : ¬ s.Linked living := by
  intro h
  cases hstop with
  | @lose held _ host _ hchildren hdead hawait =>
      obtain ⟨death, host', hawait', -⟩ :=
        hmortal.await held h (livingPids_ne_nil hchildren hdead)
      simp [hawait] at hawait'
  | @doze held death host _ hchildren hdead hawait hnone =>
      obtain ⟨death', host', hawait', hmem, -⟩ :=
        hmortal.await held h (livingPids_ne_nil hchildren hdead)
      obtain ⟨rfl, rfl⟩ : death = death' ∧ host = host' := by
        simpa [hawait] using hawait'
      have hdead' : (bury death { s with host := host }).hasDead = true := bury_hasDead hmem
      rw [hnone] at hdead'
      simp at hdead'
  | struck hkill hloss =>
      rw [(hmortal.kill h hkill).2 rfl] at hloss
      simp at hloss

end Living

end Supervisor

end JobShell
