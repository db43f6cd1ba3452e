/-
**What reaping does to the children and to the table.**

Reaping takes dead children from the kernel and books their statuses.  While it goes on children may
end, but none is forked, so what it has done can be read off from the events since it began: the
children that are left are those of the beginning that have not been reaped, as the deaths since then
have left them; the running list has lost the entries of the children that were reaped with a status,
and no others; and the completed list is as it was, followed by those of them that were not listed in
the foreground, in the order in which the kernel gave them.  All of this holds at every point, and so
also when reaping stops at a status that cannot be decoded.

The order of the running list is not kept, since the last entry takes the place of one that leaves.

Main definitions:

* `JobShell.gone`, `JobShell.booked` — the processes that events take from the kernel's list, and
  those of them that are reaped with a status;
* `JobShell.Child.after` — a child after events;
* `JobShell.Supervisor.Reckoned` — what has been done since a moment;
* `JobShell.Supervisor.Settled`, `JobShell.Supervisor.Balks` — how a reaping ends.

Main results:

* `JobShell.Supervisor.Reckoned.reaped`, `JobShell.Supervisor.Reckoned.dropped` — one child more is
  reaped, with its status or without;
* `JobShell.Supervisor.Moves.reckoned`, `JobShell.Supervisor.Reaches.reckoned` — moves keep the
  reckoning;
* `JobShell.Supervisor.reapTerminated_exact` — **reaping takes everything that is dead and books it
  in order**, or stops at the first status that cannot be decoded.
-/

import JobShell.Proofs.Job.Delivery
import JobShell.Proofs.Job.Lives
import JobShell.Proofs.Job.Notice

set_option autoImplicit false

namespace JobShell

/-! ### Reading events -/

/-- The process that an event takes from the kernel's list. -/
def Event.gone? : Event → Option Int
  | .reaped status _ => status.pid?
  | .undecodable pid _ => some pid
  | _ => none

/-- The process whose status an event books. -/
def Event.booked? : Event → Option Int
  | .reaped status _ => status.pid?
  | _ => none

/-- The processes that events take from the kernel's list, in order. -/
def gone (events : List Event) : List Int := events.filterMap Event.gone?

/-- The processes whose statuses events book, in order. -/
def booked (events : List Event) : List Int := events.filterMap Event.booked?

/-- What an event does to a child. -/
def Event.befall (c : Child) : Event → Child
  | .died pid ending => c.die (pid, ending)
  | _ => c

/-- A child after events. -/
def Child.after (events : List Event) (c : Child) : Child := events.foldl Event.befall c

/-- A child that lives, or whose end can be decoded: an exit, or a signal with a name. -/
def Child.Decodable (c : Child) : Prop := ∀ n, c.ending = some (.killed n) → 1 ≤ n ∧ n ≤ 31

section Events

variable {events : List Event} {pid : Int} {status : WaitStatus}

theorem gone_append (events : List Event) (e : Event) :
    gone (events ++ [e]) = gone events ++ e.gone?.toList := by
  cases h : e.gone? <;> simp [gone, h]

theorem booked_append (events : List Event) (e : Event) :
    booked (events ++ [e]) = booked events ++ e.booked?.toList := by
  cases h : e.booked? <;> simp [booked, h]

theorem gone_append_of_none {e : Event} (h : e.gone? = none) :
    gone (events ++ [e]) = gone events := by
  rw [gone_append, h, Option.toList_none, List.append_nil]

theorem booked_append_of_none {e : Event} (h : e.booked? = none) :
    booked (events ++ [e]) = booked events := by
  rw [booked_append, h, Option.toList_none, List.append_nil]

theorem deliveries_append_of_none {e : Event} (h : e.delivery? = none) :
    deliveries (events ++ [e]) = deliveries events := by
  rw [deliveries_append, h, Option.toList_none, List.append_nil]

theorem Child.after_append (events : List Event) (e : Event) (c : Child) :
    c.after (events ++ [e]) = e.befall (c.after events) := by
  simp [Child.after]

theorem Event.befall_pid (e : Event) (c : Child) : (e.befall c).pid = c.pid := by
  cases e with
  | died pid ending => exact c.die_pid _
  | _ => rfl

@[simp] theorem Child.after_pid (events : List Event) (c : Child) :
    (c.after events).pid = c.pid := by
  induction events using List.reverseRecOn with
  | nil => rfl
  | append_singleton events e ih => rw [after_append, Event.befall_pid, ih]

/-- Who has ended stays as it is. -/
theorem Event.befall_of_ended {c : Child} {ending : Ending} (h : c.ending = some ending)
    (e : Event) : e.befall c = c := by
  cases e with
  | died pid ending' => exact if_neg fun hdies => by simp [h] at hdies
  | _ => rfl

/-- A process whose status is booked is gone. -/
theorem booked_sublist_gone (events : List Event) : (booked events).Sublist (gone events) := by
  induction events using List.reverseRecOn with
  | nil => exact .refl _
  | append_singleton events e ih =>
      rw [booked_append, gone_append]
      refine ih.append ?_
      cases e with
      | undecodable pid ending => exact List.nil_sublist _
      | _ => exact .refl _

/-- What is booked part by part is booked as a whole. -/
theorem gone_eq_booked_append {events' : List Event} (h : gone events = booked events)
    (h' : gone events' = booked events') : gone (events ++ events') = booked (events ++ events') := by
  unfold gone booked at *
  rw [List.filterMap_append, List.filterMap_append, h, h']

/-- Who lives is as it was. -/
theorem Child.after_of_living {c : Child} (h : (c.after events).ending = none) :
    c.after events = c := by
  induction events using List.reverseRecOn with
  | nil => rfl
  | append_singleton events e ih =>
      rw [after_append] at h ⊢
      have hbefore : (c.after events).ending = none := by
        cases hending : (c.after events).ending with
        | none => rfl
        | some ending => rw [Event.befall_of_ended hending, hending] at h; cases h
      rw [ih hbefore] at h ⊢
      cases e with
      | died pid ending =>
          refine if_neg fun hdies => ?_
          simp [Event.befall, Child.die, hdies] at h
      | _ => rfl

end Events

namespace Supervisor

variable {σ : Type}

/-! ### What has been done since a moment -/

/-- An event is about a child of the beginning, as the events since then have left it: its status is
that of its own end, and it is booked under the class under which it was listed in the beginning. -/
def Concerns (s₀ : Supervisor σ) (since : List Event) : Event → Prop
  | .reaped status listed => ∃ c ∈ s₀.children, ∃ ending, (c.after since).ending = some ending ∧
      ending.decode c.pid = .ok status ∧ listed = s₀.jobs.classOf? c.pid
  | .undecodable pid ending => ∃ c ∈ s₀.children, c.pid = pid ∧
      (c.after since).ending = some ending ∧ ∃ errno, ending.decode pid = .error errno
  | _ => True

/-- What has been done between `s₀` and `s` by the events since `s₀`, among which there is no fork. -/
structure Reckoned (s₀ : Supervisor σ) (since : List Event) (s : Supervisor σ) : Prop where
  journal : s.journal = s₀.journal ++ since
  children : s.children = (s₀.children.map (Child.after since)).filter (·.pid ∉ gone since)
  running : s.jobs.running.Perm (s₀.jobs.running.filter (·.pid ∉ booked since))
  completed : s.jobs.completed = s₀.jobs.completed ++ (deliveries since).map Delivery.waiting
  /-- Nobody is reaped twice. -/
  once : (gone since).Nodup
  own : ∀ e ∈ since, s₀.Concerns since e

section Keeping

variable {s₀ s s' : Supervisor σ} {since : List Event}

theorem Reckoned.refl (s : Supervisor σ) : Reckoned s [] s where
  journal := (List.append_nil _).symm
  children := by
    have hafter : Child.after [] = id := rfl
    simp [gone, hafter]
  running := by simp [booked]
  completed := (List.append_nil _).symm
  once := List.nodup_nil
  own := by simp

/-- Nothing more has been done. -/
theorem Reckoned.still (h : Reckoned s₀ since s) :
    ∃ more, gone more = booked more ∧ Reckoned s₀ (since ++ more) s :=
  ⟨[], rfl, by rwa [List.append_nil]⟩

/-- The reckoning depends on the journal, the children and the table alone. -/
theorem Reckoned.of_eq (h : Reckoned s₀ since s) (hjournal : s'.journal = s.journal)
    (hchildren : s'.children = s.children) (hjobs : s'.jobs = s.jobs) : Reckoned s₀ since s' :=
  ⟨by rw [hjournal, h.journal], by rw [hchildren, h.children], by rw [hjobs]; exact h.running,
    by rw [hjobs, h.completed], h.once, h.own⟩

/-- What an event was about stays so, since who has ended stays as it is. -/
theorem Concerns.append {e : Event} (h : s₀.Concerns since e) (e' : Event) :
    s₀.Concerns (since ++ [e']) e := by
  have hkeeps : ∀ (c : Child) (ending : Ending), (c.after since).ending = some ending →
      (c.after (since ++ [e'])).ending = some ending := by
    intro c ending hending
    rw [Child.after_append, Event.befall_of_ended hending]
    exact hending
  cases e with
  | reaped status listed =>
      obtain ⟨c, hc, ending, hending, hdecode⟩ := h
      exact ⟨c, hc, ending, hkeeps c ending hending, hdecode⟩
  | undecodable pid ending =>
      obtain ⟨c, hc, hpid, hending, hdecode⟩ := h
      exact ⟨c, hc, hpid, hkeeps c ending hending, hdecode⟩
  | _ => trivial

theorem Reckoned.own_append (h : Reckoned s₀ since s) {e : Event}
    (he : s₀.Concerns (since ++ [e]) e) : ∀ e' ∈ since ++ [e], s₀.Concerns (since ++ [e]) e' := by
  intro e' he'
  rcases List.mem_append.1 he' with he' | he'
  · exact (h.own e' he').append e
  · obtain rfl := List.mem_singleton.1 he'
    exact he

/-- An event that neither takes a child away nor changes one. -/
theorem Reckoned.note (h : Reckoned s₀ since s) {e : Event} (hgone : e.gone? = none)
    (hbooked : e.booked? = none) (hdelivery : e.delivery? = none) (hbefall : ∀ c, e.befall c = c)
    (he : s₀.Concerns (since ++ [e]) e) :
    Reckoned s₀ (since ++ [e]) { s with journal := s.journal ++ [e] } where
  journal := by simp [h.journal]
  children := by
    have hafter : Child.after (since ++ [e]) = Child.after since := by
      funext c
      rw [Child.after_append, hbefall]
    rw [gone_append_of_none hgone, hafter]
    exact h.children
  running := by
    rw [booked_append_of_none hbooked]
    exact h.running
  completed := by
    rw [deliveries_append_of_none hdelivery]
    exact h.completed
  once := by
    rw [gone_append_of_none hgone]
    exact h.once
  own := h.own_append he

/-- A death changes the child that dies. -/
theorem Reckoned.bury (h : Reckoned s₀ since s) (death : Int × Ending) :
    ∃ more, gone more = booked more ∧ Reckoned s₀ (since ++ more) (s.bury death) := by
  unfold Supervisor.bury
  split
  · refine ⟨[.died death.1 death.2], rfl, ?_⟩
    have hafter : Child.after (since ++ [.died death.1 death.2]) =
        Child.die death ∘ Child.after since := by
      funext c
      exact Child.after_append since _ c
    have hpid : (fun c : Child => decide (c.pid ∉ gone since)) ∘ Child.die death =
        fun c => decide (c.pid ∉ gone since) := by
      funext c
      simp [Child.die_pid]
    have hgone : gone (since ++ [.died death.1 death.2]) = gone since := gone_append_of_none rfl
    exact {
      journal := by simp [h.journal]
      children := by
        rw [hgone, hafter, ← List.map_map, List.filter_map, hpid, ← h.children]
        rfl
      running := by rw [booked_append_of_none rfl]; exact h.running
      completed := by rw [deliveries_append_of_none rfl]; exact h.completed
      once := by rw [hgone]; exact h.once
      own := h.own_append trivial }
  · exact h.still

/-- No two children have the same process id. -/
theorem Reckoned.distinct (h : Reckoned s₀ since s) (hdistinct : (s₀.children.map (·.pid)).Nodup) :
    (s.children.map (·.pid)).Nodup := by
  have hpids : (s₀.children.map (Child.after since)).map (·.pid) = s₀.children.map (·.pid) := by
    rw [List.map_map]
    exact List.map_congr_left fun c _ => c.after_pid since
  rw [h.children]
  exact (List.filter_sublist.map _).nodup (hpids ▸ hdistinct)

/-- No process is listed twice. -/
theorem Reckoned.once_running (h : Reckoned s₀ since s)
    (honce : (s₀.jobs.running.map (·.pid)).Nodup) : (s.jobs.running.map (·.pid)).Nodup :=
  ((h.running.map _).nodup_iff).2 ((List.filter_sublist.map _).nodup honce)

/-- A child that is there is one of the beginning, and it has not been reaped. -/
theorem Reckoned.exists_child (h : Reckoned s₀ since s) {c : Child} (hc : c ∈ s.children) :
    c.pid ∉ gone since ∧ ∃ c₀ ∈ s₀.children, c₀.after since = c := by
  rw [h.children, List.mem_filter] at hc
  obtain ⟨hc, hgone⟩ := hc
  exact ⟨by simpa using hgone, List.mem_map.1 hc⟩

/-- A process that has not been reaped is listed as it was. -/
theorem Reckoned.classOf? (h : Reckoned s₀ since s) (honce : (s₀.jobs.running.map (·.pid)).Nodup)
    {pid : Int} (hpid : pid ∉ gone since) : s.jobs.classOf? pid = s₀.jobs.classOf? pid := by
  have hbooked : pid ∉ booked since := fun hmem => hpid ((booked_sublist_gone since).subset hmem)
  refine Option.ext fun c => ?_
  rw [JobTable.classOf?_eq_some_iff (h.once_running honce),
    JobTable.classOf?_eq_some_iff honce]
  constructor
  · rintro ⟨job, hjob, heq⟩
    exact ⟨job, (List.mem_filter.1 (h.running.mem_iff.1 hjob)).1, heq⟩
  · rintro ⟨job, hjob, rfl, heq⟩
    exact ⟨job, h.running.mem_iff.2 (List.mem_filter.2 ⟨hjob, by simpa using hbooked⟩), rfl, heq⟩

/-- Taking the child with a process id away from those that are left. -/
theorem Reckoned.children_filter (h : Reckoned s₀ since s) {e : Event} {pid : Int}
    (hgone : e.gone? = some pid) (hbefall : ∀ c, e.befall c = c) :
    s.children.filter (·.pid ≠ pid) =
      (s₀.children.map (Child.after (since ++ [e]))).filter (·.pid ∉ gone (since ++ [e])) := by
  have hafter : Child.after (since ++ [e]) = Child.after since := by
    funext c
    rw [Child.after_append, hbefall]
  rw [h.children, hafter, gone_append, hgone, List.filter_filter]
  refine List.filter_congr fun c _ => ?_
  simp only [Option.toList_some, List.mem_append, List.mem_singleton, not_or, Bool.decide_and]
  exact Bool.and_comm _ _

/-- A child is reaped, and its status is booked. -/
theorem Reckoned.reaped (h : Reckoned s₀ since s) (hdistinct : (s₀.children.map (·.pid)).Nodup)
    (honce : (s₀.jobs.running.map (·.pid)).Nodup) {pid : Int} {ending : Ending}
    {status : WaitStatus} {rest : List Child}
    (hdead : unlinkDead s.children = some ((pid, ending), rest))
    (hdecode : ending.decode pid = .ok status) :
    Reckoned s₀ (since ++ [.reaped status (s.jobs.classOf? pid)]) (s.reaped pid status rest) := by
  have hpid := Ending.decode_ok hdecode
  have hrest := unlinkDead_eq_filter (h.distinct hdistinct) hdead
  -- who is found dead was there at the start, and nobody has reaped it since
  obtain ⟨hleft, c₀, hc₀, hc₀_after⟩ := h.exists_child (mem_of_unlinkDead hdead)
  obtain rfl : c₀.pid = pid := by rw [← c₀.after_pid since, hc₀_after]
  have hgone : Event.gone? (.reaped status (s.jobs.classOf? c₀.pid)) = some c₀.pid := hpid
  have hbooked : Event.booked? (.reaped status (s.jobs.classOf? c₀.pid)) = some c₀.pid := hpid
  exact {
    journal := by simp [Supervisor.reaped, h.journal]
    children := by
      rw [← h.children_filter hgone (fun _ => rfl), ← hrest]
      rfl
    running := by
      refine (JobTable.record_running_perm hpid (h.once_running honce)).trans ?_
      refine (h.running.filter _).trans (List.Perm.of_eq ?_)
      rw [List.filter_filter, booked_append, hbooked]
      refine List.filter_congr fun job _ => ?_
      simp only [Option.toList_some, List.mem_append, List.mem_singleton, not_or, Bool.decide_and]
      exact Bool.and_comm _ _
    completed := by
      have hdelivery : (Event.delivery? (.reaped status (s.jobs.classOf? c₀.pid))).toList.map
          Delivery.waiting = if s.jobs.classOf? c₀.pid = some .foreground then []
            else [⟨c₀.pid, .background, .terminated status⟩] := by
        -- a foreground child is delivered to who waits, any other one to the report
        by_cases hclass : s.jobs.classOf? c₀.pid = some .foreground
        · simp [Event.delivery?, hclass]
        · simp [Event.delivery?, hclass, hpid, Delivery.waiting]
      change (s.jobs.record status).2.completed = _
      rw [JobTable.record_completed hpid, h.completed, deliveries_append, List.map_append,
        hdelivery, List.append_assoc]
    once := by
      rw [gone_append, hgone, Option.toList_some, List.nodup_append]
      refine ⟨h.once, List.nodup_singleton _, ?_⟩
      rintro pid hpid' _ hsame rfl
      exact hleft (List.mem_singleton.1 hsame ▸ hpid')
    own := by
      refine h.own_append ⟨c₀, hc₀, ending, ?_, hdecode, h.classOf? honce hleft⟩
      rw [Child.after_append, hc₀_after]
      rfl }

/-- A child is reaped, and its status is lost. -/
theorem Reckoned.dropped (h : Reckoned s₀ since s) (hdistinct : (s₀.children.map (·.pid)).Nodup)
    {pid : Int} {ending : Ending} {errno : Errno} {rest : List Child}
    (hdead : unlinkDead s.children = some ((pid, ending), rest))
    (hdecode : ending.decode pid = .error errno) :
    Reckoned s₀ (since ++ [.undecodable pid ending]) (s.dropped pid ending rest) := by
  have hrest := unlinkDead_eq_filter (h.distinct hdistinct) hdead
  obtain ⟨hleft, c₀, hc₀, hc₀_after⟩ := h.exists_child (mem_of_unlinkDead hdead)
  have hpid : c₀.pid = pid := by rw [← c₀.after_pid since, hc₀_after]
  have hgone : Event.gone? (.undecodable pid ending) = some pid := rfl
  exact {
    journal := by simp [Supervisor.dropped, h.journal]
    children := by
      rw [← h.children_filter hgone (fun _ => rfl), ← hrest]
      rfl
    running := by
      rw [booked_append_of_none rfl]
      exact h.running
    completed := by
      rw [deliveries_append_of_none rfl]
      exact h.completed
    once := by
      rw [gone_append, hgone, Option.toList_some, List.nodup_append]
      refine ⟨h.once, List.nodup_singleton _, ?_⟩
      rintro pid' hpid' _ hsame rfl
      exact hleft (List.mem_singleton.1 hsame ▸ hpid')
    own := by
      refine h.own_append ⟨c₀, hc₀, hpid, ?_, errno, hdecode⟩
      rw [Child.after_append, hc₀_after]
      rfl }

/-- Who is gone was a child of the beginning, and has ended. -/
theorem Reckoned.exists_ended (h : Reckoned s₀ since s) {pid : Int} (hpid : pid ∈ gone since) :
    ∃ c ∈ s₀.children, c.pid = pid ∧ (c.after since).ending ≠ none := by
  obtain ⟨e, he, hgone⟩ := List.mem_filterMap.1 hpid
  have hconcerns := h.own e he
  cases e with
  | reaped status listed =>
      obtain ⟨c, hc, ending, hending, hdecode, -⟩ := hconcerns
      have hstatus : status.pid? = some pid := hgone
      rw [Ending.decode_ok hdecode, Option.some_inj] at hstatus
      exact ⟨c, hc, hstatus, by simp [hending]⟩
  | undecodable pid' ending =>
      obtain ⟨c, hc, rfl, hending, -⟩ := hconcerns
      exact ⟨c, hc, Option.some_inj.1 hgone, by simp [hending]⟩
  | forked | died | waited | builtin => cases hgone

/-- Who lives is not gone. -/
theorem Reckoned.not_gone (h : Reckoned s₀ since s) (hdistinct : (s₀.children.map (·.pid)).Nodup)
    {c : Child} (hc : c ∈ s₀.children) (hliving : (c.after since).ending = none) :
    c.pid ∉ gone since := by
  intro hgone
  obtain ⟨c', hc', hpid, hended⟩ := h.exists_ended hgone
  obtain rfl : c' = c := List.inj_on_of_nodup_map hdistinct hc' hc hpid
  exact hended hliving

/-- Who is not gone is there, as the events have left it. -/
theorem Reckoned.stays (h : Reckoned s₀ since s) {c : Child} (hc : c ∈ s₀.children)
    (hpid : c.pid ∉ gone since) : c.after since ∈ s.children := by
  rw [h.children]
  exact List.mem_filter.2 ⟨List.mem_map_of_mem hc, by simpa using hpid⟩

/-- Who is not booked is listed as in the beginning. -/
theorem Reckoned.stays_listed (h : Reckoned s₀ since s) {job : Job} (hjob : job ∈ s₀.jobs.running)
    (hpid : job.pid ∉ booked since) : job ∈ s.jobs.running :=
  h.running.mem_iff.2 (List.mem_filter.2 ⟨hjob, by simpa using hpid⟩)

variable [Host σ]

/-- **Every move keeps the reckoning** and books what it reaps, if no child is launched. -/
theorem Moves.reckoned (hmove : Moves (fun _ => False) s s')
    (hdistinct : (s₀.children.map (·.pid)).Nodup) (honce : (s₀.jobs.running.map (·.pid)).Nodup)
    (h : Reckoned s₀ since s) :
    ∃ more, gone more = booked more ∧ Reckoned s₀ (since ++ more) s' := by
  have hsetHost : ∀ host, Reckoned s₀ since { s with host := host } :=
    fun host => h.of_eq rfl rfl rfl
  cases hmove with
  | drift held =>
      refine foldl_bury
        (I := fun t => ∃ more, gone more = booked more ∧ Reckoned s₀ (since ++ more) t) ?_ _ _
        (hsetHost _).still
      rintro t death ⟨more, hmore, ht⟩
      obtain ⟨rest, hrest, ht'⟩ := ht.bury death
      exact ⟨more ++ rest, gone_eq_booked_append hmore hrest, by rwa [← List.append_assoc]⟩
  | pipe | write | kill => exact (hsetHost _).still
  | signal signal =>
      have hset : Reckoned s₀ since { s with signal := signal } := h.of_eq rfl rfl rfl
      exact hset.still
  | builtin name => exact ⟨[.builtin name], rfl, h.note rfl rfl rfl (fun _ => rfl) trivial⟩
  | wait => exact ⟨[.waited], rfl, h.note rfl rfl rfl (fun _ => rfl) trivial⟩
  | launch hlaunching => exact hlaunching.elim
  | wake => exact (hsetHost _).bury _
  | reap hdead hdecode => exact ⟨_, rfl, h.reaped hdistinct honce hdead hdecode⟩

/-- So do any number of moves. -/
theorem Reaches.reckoned (h : Reaches (fun _ => False) s s')
    (hdistinct : (s.children.map (·.pid)).Nodup) (honce : (s.jobs.running.map (·.pid)).Nodup) :
    ∃ since, gone since = booked since ∧ Reckoned s since s' := by
  refine h.keeps (I := fun t => ∃ since, gone since = booked since ∧ Reckoned s since t) ?_
    ⟨[], rfl, .refl s⟩
  rintro u v hmove ⟨since, hbooked, hu⟩
  obtain ⟨more, hmore, hv⟩ := hmove.reckoned hdistinct honce hu
  exact ⟨since ++ more, gone_eq_booked_append hbooked hmore, hv⟩

end Keeping

/-! ### How reaping ends -/

/-- How a reaping ends that the events are of: with a status booked for everybody who is gone, or
with one last child whose status cannot be decoded, and is not booked. -/
def Settled (since : List Event) : Except Stop Unit → Prop
  | .ok _ => gone since = booked since
  | .error stop => stop = .failed ⟨.waitpid, Errno.invalid⟩ ∧ ∃ before pid n,
      since = before ++ [.undecodable pid (.killed n)] ∧ ¬ (1 ≤ n ∧ n ≤ 31) ∧
        gone before = booked before ∧ pid ∉ booked before

/-- A reaping whose children end by exits and by signals with names does not fail. -/
theorem Reckoned.ok_of_decodable {s₀ s : Supervisor σ} {since : List Event} {r : Except Stop Unit}
    (h : Reckoned s₀ since s) (hsettled : Settled since r)
    (hdecodable : ∀ c ∈ s₀.children, (c.after since).Decodable) : r = .ok ⟨⟩ := by
  cases r with
  | ok => rfl
  | error stop =>
      obtain ⟨-, before, pid, n, rfl, hn, -⟩ := hsettled
      obtain ⟨c, hc, -, hending, -⟩ := h.own (.undecodable pid (.killed n)) (by simp)
      exact absurd (hdecodable c hc n hending) hn

variable [Host σ]

/-- After moves an operation fails at a dead child whose status cannot be decoded. -/
inductive Balks (s₀ : Supervisor σ) : Stop → Supervisor σ → Prop where
  | undecodable {pid : Int} {ending : Ending} {errno : Errno} {rest : List Child}
      {s : Supervisor σ} :
      Reaches (fun _ => False) s₀ s → unlinkDead s.children = some ((pid, ending), rest) →
        ending.decode pid = .error errno →
          Balks s₀ (.failed ⟨.waitpid, errno⟩) (s.dropped pid ending rest)

section Ending

variable {s₀ s : Supervisor σ}

theorem Balks.reckoned {stop : Stop} (h : Balks s₀ stop s)
    (hdistinct : (s₀.children.map (·.pid)).Nodup) (honce : (s₀.jobs.running.map (·.pid)).Nodup) :
    ∃ since, Settled since (.error stop) ∧ Reckoned s₀ since s := by
  obtain ⟨hreaches, hdead, hdecode⟩ := h
  obtain ⟨before, hbooked, hbefore⟩ := hreaches.reckoned hdistinct honce
  have hdropped := hbefore.dropped hdistinct hdead hdecode
  obtain ⟨rfl, n, rfl, hn⟩ := Ending.decode_error_iff.1 hdecode
  refine ⟨_, ⟨rfl, before, _, n, rfl, hn, hbooked, ?_⟩, hdropped⟩
  have hsplit := hdropped.once
  rw [gone_append, hbooked] at hsplit
  intro hmem
  exact (List.nodup_append.1 hsplit).2.2 _ hmem _ (List.mem_singleton_self _) rfl

/-- What comes of moves, or of failing at a status that cannot be decoded, can be reckoned up. -/
theorem exists_reckoned {D : Supervisor σ → Prop} {r : Except Stop Unit}
    (h : OkOr (fun _ t => Reaches (fun _ => False) s₀ t ∧ D t) (Balks s₀) r s)
    (hdistinct : (s₀.children.map (·.pid)).Nodup) (honce : (s₀.jobs.running.map (·.pid)).Nodup) :
    ∃ since, Settled since r ∧ Reckoned s₀ since s ∧ (r = .ok ⟨⟩ → D s) := by
  cases r with
  | ok =>
      obtain ⟨since, hbooked, hsince⟩ := h.1.reckoned hdistinct honce
      exact ⟨since, hbooked, hsince, fun _ => h.2⟩
  | error stop =>
      obtain ⟨since, hsettled, hsince⟩ := Balks.reckoned h hdistinct honce
      exact ⟨since, hsettled, hsince, by simp⟩

variable (held : Descriptors)

/-- Reaping fails at a status that cannot be decoded, or not at all. -/
theorem reapAll_balks (n : Nat) :
    Ensures (Reaches (fun _ => False) s₀) (reapAll held n) (OkOr (fun _ _ => True) (Balks s₀)) := by
  induction n with
  | zero => exact Ensures.ofPure fun _ _ => trivial
  | succ n ih =>
      refine Ensures.bind (OkOr
        (fun dead t => Reaches (fun _ => False) s₀
          { t with jobs := dead.elim t.jobs fun status => (t.jobs.record status).2 })
        (Balks s₀)) ?_ ?_ fun _ _ h => h
      · refine Ensures.modify_bind fun s hs => ?_
        have hdrifted : Reaches (fun _ => False) s₀ (s.drifted held) := hs.tail (.drift held s)
        refine (reapDead_unlinks (s.drifted held)).post ?_
        rintro (stop | _ | status) t h
        · obtain ⟨pid, ending, errno, rest, hdead, hdecode, rfl, rfl⟩ := h
          exact .undecodable hdrifted hdead hdecode
        · exact h.1 ▸ hdrifted
        · obtain ⟨pid, ending, rest, hdead, hdecode, ht⟩ := h
          have hreaped := hdrifted.tail (.reap hdead hdecode)
          rw [← ht] at hreaped
          exact hreaped
      · rintro (_ | status)
        · exact Ensures.ofPure fun _ _ => trivial
        · exact Ensures.modify_bind fun t ht => ih.pre fun _ hu => hu ▸ ht

/-- What reaping comes to: it ends without a dead child, or it fails at a status that cannot be
decoded. -/
theorem reapTerminated_ensures (s : Supervisor σ) :
    Ensures (· = s) (reapTerminated held) (OkOr
      (fun _ t => Reaches (fun _ => False) s t ∧ t.hasDead = false) (Balks s)) := by
  refine takeNotice_bind ?_
  rintro s rfl
  refine Ensures.get_bind ?_
  rintro _ rfl
  have hcleared : Reaches (fun _ => False) s { s with signal := s.signal.clear } :=
    .single (.signal s.signal.clear s)
  have hmoves : Ensures (· = { s with signal := s.signal.clear })
      (reapAll held s.children.length) (Comes (fun _ => False) s) :=
    (reapAll_comes held _).pre fun _ ht => ht ▸ hcleared
  have hbalks : Ensures (· = { s with signal := s.signal.clear })
      (reapAll held s.children.length) (OkOr (fun _ _ => True) (Balks s)) :=
    (reapAll_balks held _).pre fun _ ht => ht ▸ hcleared
  have hends : Ensures (· = { s with signal := s.signal.clear })
      (reapAll held s.children.length) (OkOr (fun _ t => t.hasDead = false) fun _ t => t.Lost) :=
    (reapAll_ends held _).pre fun _ ht => ht ▸ Nat.le_refl _
  refine ((hmoves.and hbalks).and hends).post ?_
  rintro (stop | _) t ⟨⟨hcomes, hstopped⟩, hdead⟩
  · exact hstopped
  · exact ⟨hcomes, hdead⟩

/-- **Reaping takes everything that is dead and books it in order.**  For all children, listed or
not, alive or dead, and on every host, so however children die meanwhile:

* what has been done since the beginning is reckoned up.  Of the children those are left that have
  not been reaped, as their deaths have left them; the running list has lost the entries of those
  whose status was booked and no other; to the completed list those of them have been added that
  were not listed in the foreground, in the order in which the kernel gave them;
* if the children end by exits and by signals with names it does not fail.  Then no dead child is
  left, and those are gone that had ended;
* a child that lives is there as it was, and a job whose process is not booked is listed as it was;
* if it fails, it is at a child whose status cannot be decoded.  Everybody who was gone before is
  booked, and that child is not.

That no process is listed twice is what the table asserts whenever it lists one. -/
theorem reapTerminated_exact (s : Supervisor σ) (hdistinct : (s.children.map (·.pid)).Nodup)
    (honce : (s.jobs.running.map (·.pid)).Nodup) :
    let after := (reapTerminated held).run s
    ∃ since, Reckoned s since after.2 ∧ Settled since after.1 ∧
      ((∀ c ∈ s.children, (c.after since).Decodable) → after.1 = .ok ⟨⟩) ∧
      (after.1 = .ok ⟨⟩ → after.2.hasDead = false ∧
        ∀ c ∈ s.children, c.pid ∈ gone since ↔ (c.after since).ending ≠ none) ∧
      (∀ c ∈ s.children, (c.after since).ending = none →
        c ∈ after.2.children ∧ c.pid ∉ booked since) ∧
      ∀ job ∈ s.jobs.running, job.pid ∉ booked since → job ∈ after.2.jobs.running := by
  intro after
  have hends := reapTerminated_ensures held s s rfl
  obtain ⟨since, hsettled, hsince, hdead⟩ := exists_reckoned hends hdistinct honce
  refine ⟨since, hsince, hsettled, hsince.ok_of_decodable hsettled, ?_, ?_, ?_⟩
  · intro hok
    refine ⟨hdead hok, fun c hc => ⟨fun hgone hliving => ?_, fun hended => ?_⟩⟩
    · exact hsince.not_gone hdistinct hc hliving hgone
    · -- a child that has ended and is still there would be a dead one
      by_contra hstays
      have hnone := hdead hok
      rw [hasDead_eq_false_iff, unlinkDead_eq_none_iff] at hnone
      exact hended (hnone _ (hsince.stays hc hstays))
  · intro c hc hliving
    have hstays := hsince.not_gone hdistinct hc hliving
    have hchild := hsince.stays hc hstays
    rw [Child.after_of_living hliving] at hchild
    exact ⟨hchild, fun hmem => hstays ((booked_sublist_gone since).subset hmem)⟩
  · exact fun job hjob hbooked => hsince.stays_listed hjob hbooked

/-- Five children: one of the foreground that has exited, one of the background that lives, a stranger
that was killed, one of the background that has exited, and one that lives and is not listed. -/
def fiveChildren (strangersEnd : Ending) : Supervisor Still where
  host := ⟨⟩
  children := [⟨7, some (.exited 3)⟩, ⟨8, none⟩, ⟨9, some strangersEnd⟩, ⟨10, some (.exited 0)⟩,
    ⟨11, none⟩]
  jobs.running := [⟨7, .foreground, .running⟩, ⟨8, .background, .running⟩,
    ⟨10, .background, .running⟩]

/-- If the stranger was killed by signal 9 everything is reaped; if it was killed by signal 34 the
child that comes after it is neither reaped nor booked. -/
theorem reapTerminated_exact_five :
    let after := fun strangersEnd => (reapTerminated {}).run (fiveChildren strangersEnd)
    ((after (.killed 9)).1 = .ok ⟨⟩ ∧ (after (.killed 9)).2.children = [⟨8, none⟩, ⟨11, none⟩] ∧
      (after (.killed 9)).2.jobs.completed.map (·.pid) = [9, 10] ∧
      ∃ since, Reckoned (fiveChildren (.killed 9)) since (after (.killed 9)).2 ∧
        Settled since (after (.killed 9)).1) ∧
    (after (.killed 34)).1 = .error (.failed ⟨.waitpid, Errno.invalid⟩) ∧
      (after (.killed 34)).2.jobs.running.map (·.pid) = [10, 8] ∧
      ∃ since, Reckoned (fiveChildren (.killed 34)) since (after (.killed 34)).2 ∧
        Settled since (after (.killed 34)).1 := by
  obtain ⟨since, hsince, hsettled, -⟩ :=
    reapTerminated_exact {} (fiveChildren (.killed 9)) (by decide) (by decide)
  obtain ⟨since', hsince', hsettled', -⟩ :=
    reapTerminated_exact {} (fiveChildren (.killed 34)) (by decide) (by decide)
  exact ⟨⟨by decide +kernel, by decide +kernel, by decide +kernel, since, hsince, hsettled⟩,
    by decide +kernel, by decide +kernel, since', hsince', hsettled'⟩

end Ending

end Supervisor

end JobShell
