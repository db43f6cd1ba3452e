/-
**Waiting for the foreground, exactly.**

The wait call takes any child that is dead, and waiting goes on while a job of the foreground is
listed.  So others than those that are waited for may be reaped on the way, and they are booked as
they always are; but nothing is reaped any more once the last child of the foreground has been.

That waiting comes to an end takes little of the host: as long as a child lives that is waited for,
some child that lives ends.  Children that are not waited for may live for ever.

Main definitions:

* `JobShell.Forthcoming` — a host on which the processes that are due end.

Main results:

* `JobShell.Supervisor.waitForeground_ensures` — waiting is over when no job of the foreground is
  listed, or it fails at a status that cannot be decoded;
* `JobShell.Supervisor.waitForeground_exact` — **the foreground is waited for, and nothing more.**
-/

import JobShell.Proofs.Containment
import JobShell.Proofs.Job.Reckoning
import JobShell.Proofs.Job.Waiting

set_option autoImplicit false

namespace JobShell

/-- A host on which the processes that are due end: it knows which children live, and while one of
them is due a wait call is over when some child that lives has ended. -/
structure Forthcoming {σ : Type} [Host σ] (due : Int → Prop) (living : σ → List Int → Prop) :
    Prop where
  drift : ∀ {host pids} held, living host pids →
    living (Host.drift held host).2
      (pids.filter (· ∉ (Host.drift held host).1.map (·.1)))
  await : ∀ {host pids} held, living host pids → (∃ pid ∈ pids, due pid) →
    ∃ death host', Host.await held host = .ok (death, host') ∧ death.1 ∈ pids ∧
      living host' (pids.filter (· ≠ death.1))

/-- Where every child ends, those that are due do. -/
theorem Mortal.forthcoming {σ : Type} [Host σ] {living : σ → List Int → Prop}
    (h : Mortal living) (due : Int → Prop) : Forthcoming due living where
  drift := h.drift
  await held hliving hdue := by
    obtain ⟨pid, hpid, -⟩ := hdue
    exact h.await held hliving (List.ne_nil_of_mem hpid)

namespace Supervisor

variable {σ : Type} [Host σ] {due : Int → Prop} {living : σ → List Int → Prop}
variable {s s₀ : Supervisor σ} {since : List Event} (held : Descriptors)

/-- Every job of the foreground is a child, and due. -/
def Awaited (due : Int → Prop) (s : Supervisor σ) : Prop :=
  ∀ job ∈ s.jobs.running, job.jobClass = .foreground →
    due job.pid ∧ job.pid ∈ s.children.map (·.pid)

omit [Host σ] in
/-- What is booked is no longer listed, and who is listed is still a child. -/
theorem Reckoned.awaited (h : Reckoned s₀ since s) (hbooked : gone since = booked since)
    (hawaited : s₀.Awaited due) : s.Awaited due := by
  intro job hjob hclass
  obtain ⟨hjob₀, hleft⟩ := List.mem_filter.1 (h.running.mem_iff.1 hjob)
  obtain ⟨hdue, hchild⟩ := hawaited job hjob₀ hclass
  obtain ⟨c, hc, hpid⟩ := List.mem_map.1 hchild
  have hgone : c.pid ∉ gone since := by
    rw [hbooked, hpid]
    simpa using hleft
  exact ⟨hdue, List.mem_map.2 ⟨_, h.stays hc hgone, by rw [Child.after_pid, hpid]⟩⟩

omit [Host σ] in
/-- While no child is dead every job of the foreground lives. -/
theorem Awaited.exists_living (h : s.Awaited due) (hforeground : s.jobs.hasForeground = true)
    (hdead : s.hasDead = false) : ∃ pid ∈ livingPids s.children, due pid := by
  obtain ⟨job, hjob, hclass⟩ := JobTable.hasForeground_iff.1 hforeground
  obtain ⟨hdue, hchild⟩ := h job hjob hclass
  obtain ⟨c, hc, hpid⟩ := List.mem_map.1 hchild
  rw [hasDead_eq_false_iff, unlinkDead_eq_none_iff] at hdead
  exact ⟨job.pid, List.mem_map.2 ⟨c, List.mem_filter.2 ⟨hc, by simp [hdead c hc]⟩, hpid⟩, hdue⟩

theorem drifted_linked (hhost : Forthcoming due living) (h : s.Linked living) :
    (s.drifted held).Linked living := by
  unfold Linked at h ⊢
  rw [drifted_host, drifted, foldl_bury_living]
  exact hhost.drift held h

/-- While a job of the foreground is listed the wait call does not sleep for ever. -/
theorem sleepUntilDeath_wakes (hhost : Forthcoming due living) (hlinked : s.Linked living)
    (hawaited : s.Awaited due) (hforeground : s.jobs.hasForeground = true) :
    Ensures (· = s) (sleepUntilDeath held) (Surely fun _ t =>
      Reaches (fun _ => False) s t ∧ t.Linked living ∧ t.hasDead = true) := by
  refine Ensures.get_bind ?_
  rintro s rfl
  by_cases hdead : s.hasDead = true
  · rw [if_pos hdead]
    refine Ensures.ofPure ?_
    rintro _ rfl
    exact ⟨.refl, hlinked, hdead⟩
  · rw [if_neg hdead]
    rw [Bool.not_eq_true] at hdead
    have hliving := hawaited.exists_living hforeground hdead
    obtain ⟨death, host, hawait, hmem, hlinked'⟩ := hhost.await held hlinked hliving
    have hchildren : s.children ≠ [] := by
      rintro hnil
      obtain ⟨pid, hpid, -⟩ := hliving
      simp [livingPids, hnil] at hpid
    rw [hawait]
    refine Ensures.ofSet fun _ _ => ⟨.single (.wake hchildren hdead hawait), ?_, ?_⟩
    · unfold Linked
      rw [bury_host, bury_living]
      exact hlinked'
    · exact bury_hasDead hmem

/-- A wait call for a job of the foreground reaps a child, or fails at a status that cannot be
decoded. -/
theorem waitOne_reaches (hhost : Forthcoming due living) (hreaches : Reaches (fun _ => False) s₀ s)
    (hlinked : s.Linked living) (hawaited : s.Awaited due)
    (hforeground : s.jobs.hasForeground = true) :
    Ensures (· = s) (waitOne held) (OkOr (fun status t =>
      Reaches (fun _ => False) s₀ { t with jobs := (t.jobs.record status).2 } ∧ t.Linked living)
      (Balks s₀)) := by
  refine Ensures.modify_bind ?_
  rintro s rfl
  refine Ensures.modify_bind ?_
  rintro _ rfl
  -- the state in which the wait call is made
  change Ensures
    (· = { s.drifted held with journal := (s.drifted held).journal ++ [Event.waited] }) _ _
  have hdrifted : (s.drifted held).jobs.hasForeground = true := by rwa [drifted_jobs]
  have hcalled : Reaches (fun _ => False) s₀
      { s.drifted held with journal := (s.drifted held).journal ++ [Event.waited] } :=
    (hreaches.tail (.drift held s)).tail (.wait hdrifted)
  have hawaited' : (s.drifted held).Awaited due := by
    intro job hjob hclass
    rw [drifted_pids]
    rw [drifted_jobs] at hjob
    exact hawaited job hjob hclass
  obtain ⟨job, hjob, hclass⟩ := JobTable.hasForeground_iff.1 hdrifted
  obtain ⟨c, hc, -⟩ := List.mem_map.1 (hawaited' job hjob hclass).2
  refine Ensures.get_bind ?_
  rintro t rfl
  rw [if_neg (by simpa using List.ne_nil_of_mem hc)]
  refine Ensures.bind_surely
    (sleepUntilDeath_wakes held hhost (drifted_linked held hhost hlinked) hawaited' hdrifted) ?_
  rintro ⟨⟩ u ⟨hslept, hlinked', hdead⟩
  have hu := hcalled.trans hslept
  refine Ensures.bind _ (reapDead_unlinks u) ?_ ?_
  · rintro (_ | status)
    · refine Ensures.ofThrow ?_
      rintro v ⟨rfl, hnone⟩
      rw [hasDead_eq_false_iff.2 hnone] at hdead
      cases hdead
    · refine Ensures.ofPure ?_
      rintro v ⟨pid, ending, rest, hunlink, hdecode, hv⟩
      obtain ⟨hhost', hchildren⟩ : v.host = u.host ∧ v.children = rest :=
        Prod.mk.inj (congrArg (fun w : Supervisor σ => (w.host, w.children)) hv)
      refine ⟨hv ▸ hu.tail (.reap hunlink hdecode), ?_⟩
      unfold Linked
      rw [hhost', hchildren, livingPids_of_unlinkDead hunlink]
      exact hlinked'
  · rintro stop v ⟨pid, ending, errno, rest, hunlink, hdecode, rfl, rfl⟩
    exact .undecodable hu hunlink hdecode

/-- Waiting fails at a status that cannot be decoded, or not at all. -/
theorem waitRounds_balks (hhost : Forthcoming due living)
    (hdistinct : (s₀.children.map (·.pid)).Nodup) (honce : (s₀.jobs.running.map (·.pid)).Nodup)
    (hawaited : s₀.Awaited due) (n : Nat) :
    Ensures (fun s => Reaches (fun _ => False) s₀ s ∧ s.Linked living) (waitRounds held n)
      (OkOr (fun _ _ => True) (Balks s₀)) := by
  -- a job of the foreground that is listed is still a child, wherever moves have led
  have hstays : ∀ s, Reaches (fun _ => False) s₀ s → s.Awaited due := by
    intro s hs
    obtain ⟨since, hbooked, hsince⟩ := hs.reckoned hdistinct honce
    exact hsince.awaited hbooked hawaited
  have hround : ∀ s, Reaches (fun _ => False) s₀ s ∧ s.Linked living →
      s.jobs.hasForeground = true → Ensures (· = s) (waitOne held) (OkOr (fun status t =>
        Reaches (fun _ => False) s₀ { t with jobs := (t.jobs.record status).2 } ∧
          t.Linked living) (Balks s₀)) :=
    fun s hs hforeground => waitOne_reaches held hhost hs.1 hs.2 (hstays s hs.1) hforeground
  induction n with
  | zero =>
      refine Ensures.get_bind fun s hs => ?_
      by_cases hforeground : s.jobs.hasForeground = true
      · rw [if_pos hforeground]
        exact Ensures.bind _ (hround s hs hforeground)
          (fun _ => Ensures.ofPure fun _ _ => trivial) fun _ _ h => h
      · rw [if_neg hforeground]
        exact Ensures.ofPure fun _ _ => trivial
  | succ n ih =>
      refine Ensures.get_bind fun s hs => ?_
      by_cases hforeground : s.jobs.hasForeground = true
      · rw [if_pos hforeground]
        refine Ensures.bind _ (hround s hs hforeground) ?_ fun _ _ h => h
        refine fun status => Ensures.modify_bind fun t ht => ih.pre ?_
        rintro _ rfl
        exact ht
      · rw [if_neg hforeground]
        exact Ensures.ofPure fun _ _ => trivial

/-- What waiting comes to. -/
theorem waitForeground_ensures (hhost : Forthcoming due living) (hlinked : s.Linked living)
    (hdistinct : (s.children.map (·.pid)).Nodup) (honce : (s.jobs.running.map (·.pid)).Nodup)
    (hawaited : s.Awaited due) :
    Ensures (· = s) (waitForeground held) (OkOr
      (fun _ t => Reaches (fun _ => False) s t ∧ t.jobs.hasForeground = false) (Balks s)) := by
  have hbalks : Ensures (· = s) (waitForeground held) (OkOr (fun _ _ => True) (Balks s)) := by
    refine Ensures.get_bind ?_
    rintro s rfl
    refine (waitRounds_balks held hhost hdistinct honce hawaited s.children.length).pre ?_
    rintro _ rfl
    exact ⟨.refl, hlinked⟩
  have hmoves : Ensures (· = s) (waitForeground held) fun r t =>
      Comes (fun _ => False) s r t ∧ (r = .ok ⟨⟩ → t.jobs.hasForeground = false) :=
    ensures_of_reaches (waitForeground_comes held)
  refine (hmoves.and hbalks).post ?_
  rintro (stop | _) t ⟨⟨hcomes, hdone⟩, hstopped⟩
  · exact hstopped
  · exact ⟨hcomes, hdone rfl⟩

omit [Host σ] in
/-- A job that was listed and is no longer has been booked, once. -/
theorem Reckoned.count_booked (h : Reckoned s₀ since s) {job : Job} (hjob : job ∈ s₀.jobs.running)
    (hgone : job ∉ s.jobs.running) : (booked since).count job.pid = 1 := by
  have hmem : job.pid ∈ booked since := by
    by_contra hnot
    exact hgone (h.stays_listed hjob hnot)
  exact List.count_eq_one_of_mem ((booked_sublist_gone since).nodup h.once) hmem

/-- If no job of the foreground is listed there is nothing to wait for. -/
theorem waitForeground_done (hforeground : s.jobs.hasForeground = false) :
    (waitForeground held).run s = (.ok ⟨⟩, s) := by
  refine Gives.run (Ensures.get_bind ?_)
  rintro s rfl
  exact waitRounds_done held _ hforeground

/-- Waiting that reaps anybody reaps a child of the foreground last. -/
theorem waitForeground_last (s : Supervisor σ) (since : List Event)
    (hok : ((waitForeground held).run s).1 = .ok ⟨⟩)
    (hjournal : ((waitForeground held).run s).2.journal = s.journal ++ since)
    (hsince : since ≠ []) :
    ∃ status, since.getLast? = some (.reaped status (some .foreground)) := by
  cases hforeground : s.jobs.hasForeground with
  | true =>
      have hwaits := waitForeground_waits held s hforeground
      rw [hok] at hwaits
      obtain ⟨status, hlast⟩ := hwaits
      rw [hjournal, List.getLast?_append_of_ne_nil _ hsince] at hlast
      exact ⟨status, hlast⟩
  | false =>
      rw [waitForeground_done held hforeground] at hjournal
      exact absurd (List.self_eq_append_right.1 hjournal) hsince

/-- **The foreground is waited for, and nothing more.**  Let every job of the foreground be a child
that has not been reaped, alive or dead, and let those that live end sooner or later; other children
may be listed or not, dead or alive, and may live for ever.

* If no job of the foreground is listed, no wait call is made and nothing changes.
* What has been done since the beginning is reckoned up, as for `reapTerminated_exact`: a child that
  was reaped on the way without being one of the foreground is on the completed list, in the order in
  which they were reaped, and is no longer listed as running; who was not reaped is there and is
  listed as before.
* If the children end by exits and by signals with names, waiting does not fail.
* If it does not fail, no job of the foreground is listed any more, every one of them has been reaped
  exactly once, and if anybody was reaped, the last one was a child of the foreground. -/
theorem waitForeground_exact (hhost : Forthcoming due living) (hlinked : s.Linked living)
    (hdistinct : (s.children.map (·.pid)).Nodup) (honce : (s.jobs.running.map (·.pid)).Nodup)
    (hawaited : s.Awaited due) :
    let after := (waitForeground held).run s
    (s.jobs.hasForeground = false → after = (.ok ⟨⟩, s)) ∧
    ∃ since, Reckoned s since after.2 ∧ Settled since after.1 ∧
      ((∀ c ∈ s.children, (c.after since).Decodable) → after.1 = .ok ⟨⟩) ∧
      (after.1 = .ok ⟨⟩ → after.2.jobs.hasForeground = false ∧
        (∀ job ∈ s.jobs.running, job.jobClass = .foreground →
          (booked since).count job.pid = 1) ∧
        (since ≠ [] → ∃ status, since.getLast? = some (.reaped status (some .foreground)))) ∧
      (∀ c ∈ s.children, c.pid ∉ gone since → c.after since ∈ after.2.children) ∧
      ∀ job ∈ s.jobs.running, job.pid ∉ booked since → job ∈ after.2.jobs.running := by
  intro after
  refine ⟨fun hforeground => waitForeground_done held hforeground, ?_⟩
  have hends := waitForeground_ensures held hhost hlinked hdistinct honce hawaited s rfl
  obtain ⟨since, hsettled, hsince, hdone⟩ := exists_reckoned hends hdistinct honce
  refine ⟨since, hsince, hsettled, hsince.ok_of_decodable hsettled, fun hok => ?_,
    fun c hc hpid => hsince.stays hc hpid, fun job hjob hpid => hsince.stays_listed hjob hpid⟩
  refine ⟨hdone hok, fun job hjob hclass => hsince.count_booked hjob fun hstays => ?_, ?_⟩
  · have hforeground := JobTable.hasForeground_iff.2 ⟨job, hstays, hclass⟩
    rw [hdone hok] at hforeground
    cases hforeground
  · exact waitForeground_last held s since hok hsince.journal

/-- Six children: a stranger that was killed, one of the background, one of the foreground and another
of the background that live, one of the foreground that has exited, and one that is not listed. -/
def sixChildren : Supervisor Fated where
  host := { fate := .killed 15, living := [8, 9, 10, 12] }
  children := [⟨7, some (.killed 9)⟩, ⟨8, none⟩, ⟨9, none⟩, ⟨10, none⟩, ⟨11, some (.exited 1)⟩,
    ⟨12, none⟩]
  jobs.running := [⟨8, .background, .running⟩, ⟨9, .foreground, .running⟩,
    ⟨10, .background, .running⟩, ⟨11, .foreground, .running⟩]

/-- The stranger and the child of the background that ends first are reaped on the way; the others
that are not waited for go on living. -/
theorem waitForeground_exact_six :
    let after := (waitForeground {}).run sixChildren
    (after.1 = .ok ⟨⟩ ∧ after.2.children = [⟨10, none⟩, ⟨12, none⟩] ∧
      after.2.jobs.completed.map (·.pid) = [7, 8] ∧ after.2.jobs.running.map (·.pid) = [10]) ∧
    ∃ since, Reckoned sixChildren since after.2 ∧
      (booked since).count 9 = 1 ∧ (booked since).count 11 = 1 := by
  have hlinked : sixChildren.Linked fun h pids => h.living = pids ∧ pids.Nodup :=
    ⟨by decide, by decide⟩
  have hawaited : sixChildren.Awaited fun _ => True := by
    unfold Awaited
    decide
  obtain ⟨-, since, hsince, -, -, hdone, -⟩ := waitForeground_exact {}
    (Fated.mortal.forthcoming fun _ => True) hlinked (by decide) (by decide) hawaited
  have hok : ((waitForeground {}).run sixChildren).1 = .ok ⟨⟩ := by decide +kernel
  exact ⟨⟨hok, by decide +kernel, by decide +kernel, by decide +kernel⟩, since, hsince,
    (hdone hok).2.1 ⟨9, .foreground, .running⟩ (by decide) rfl,
    (hdone hok).2.1 ⟨11, .foreground, .running⟩ (by decide) rfl⟩

end Supervisor

end JobShell
