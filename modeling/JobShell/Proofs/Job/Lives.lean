/-
**The lives of the children.**

A child is forked, it ends, and it is reaped.  A journal tells this of any number of children, and a
process id in it may be that of several children, one after another.  Still every event is about one
child only, since a process id comes back only after the child that had it has been reaped: so a
journal can be read as a list of lives.

Read from any moment on, the journal agrees with the kernel and with the job table.  The lives that
are not over are the children that the kernel has got since then, and each of them is listed under
the class of its pipeline.

Main definitions:

* `JobShell.Life`, `JobShell.lives` — what a journal tells of one child, and of all of them;
* `JobShell.Life.Over` — a child that has ended and has been reaped;
* `JobShell.unreaped` — the children that a journal leaves with the kernel;
* `JobShell.Supervisor.Chronicle` — what has happened since a moment, as the kernel and the job table
  have it.

Main results:

* `JobShell.lives_classes` — every fork begins one life;
* `JobShell.Supervisor.Moves.chronicle`, `JobShell.Supervisor.Reaches.chronicle` — moves keep the
  agreement;
* `JobShell.Supervisor.Chronicle.over` — without a listed foreground job all foreground lives are
  over.
-/

import JobShell.Proofs.Job.Outstanding

set_option autoImplicit false

namespace JobShell

/-! ### Reading a journal -/

/-- What a journal tells of one child. -/
structure Life where
  pid : Int
  jobClass : JobClass
  ending : Option Ending := none
  reaped : Bool := false
  deriving DecidableEq, Repr

namespace Life

/-- The child ends, if it is the one whose process id it is and it has not ended. -/
def die (pid : Int) (ending : Ending) (l : Life) : Life :=
  if l.pid = pid ∧ l.ending = none then { l with ending := some ending } else l

/-- The child is reaped, if it is the one whose process id it is. -/
def reap (pid : Option Int) (l : Life) : Life :=
  if pid = some l.pid then { l with reaped := true } else l

/-- The child has ended, and it has been reaped. -/
def Over (l : Life) : Prop := l.reaped = true ∧ l.ending.isSome = true

instance : DecidablePred Over := fun l => by
  unfold Over
  infer_instance

/-- The child as the kernel keeps it. -/
def child (l : Life) : Child := ⟨l.pid, l.ending⟩

@[simp] theorem die_pid (pid : Int) (ending : Ending) (l : Life) : (l.die pid ending).pid = l.pid := by
  unfold die
  split <;> rfl

@[simp] theorem die_jobClass (pid : Int) (ending : Ending) (l : Life) :
    (l.die pid ending).jobClass = l.jobClass := by
  unfold die
  split <;> rfl

@[simp] theorem die_reaped (pid : Int) (ending : Ending) (l : Life) :
    (l.die pid ending).reaped = l.reaped := by
  unfold die
  split <;> rfl

@[simp] theorem reap_pid (pid : Option Int) (l : Life) : (l.reap pid).pid = l.pid := by
  unfold reap
  split <;> rfl

@[simp] theorem reap_jobClass (pid : Option Int) (l : Life) : (l.reap pid).jobClass = l.jobClass := by
  unfold reap
  split <;> rfl

@[simp] theorem reap_ending (pid : Option Int) (l : Life) : (l.reap pid).ending = l.ending := by
  unfold reap
  split <;> rfl

/-- A child has been reaped that had been so already, or whose process id it is. -/
theorem reap_reaped (pid : Option Int) (l : Life) :
    (l.reap pid).reaped = (decide (pid = some l.pid) || l.reaped) := by
  unfold reap
  split <;> simp [*]

/-- Who has ended stays so. -/
theorem die_ending_isSome {pid : Int} {ending : Ending} {l : Life} (h : l.ending.isSome = true) :
    (l.die pid ending).ending.isSome = true := by
  unfold die
  split
  · rfl
  · exact h

end Life

/-- A child after a death, which is its own if it has the process id and has not ended. -/
def Child.die (death : Int × Ending) (c : Child) : Child :=
  if c.pid = death.1 ∧ c.ending = none then { c with ending := some death.2 } else c

theorem Child.die_pid (death : Int × Ending) (c : Child) : (c.die death).pid = c.pid := by
  unfold die
  split <;> rfl

/-- The lives after one more event. -/
def Event.enter (lives : List Life) : Event → List Life
  | .forked pid jobClass => lives ++ [{ pid := pid, jobClass := jobClass }]
  | .died pid ending => lives.map (Life.die pid ending)
  | .reaped status _ => lives.map (Life.reap status.pid?)
  | .undecodable pid _ => lives.map (Life.reap (some pid))
  | _ => lives

/-- The lives of the children that are forked in a journal, in the order of their forks. -/
def lives (journal : List Event) : List Life := journal.foldl Event.enter []

theorem lives_append (journal : List Event) (e : Event) :
    lives (journal ++ [e]) = e.enter (lives journal) := by
  simp [lives]

/-- The children that a journal leaves with the kernel. -/
def unreaped (journal : List Event) : List Child :=
  ((lives journal).filter fun l => l.reaped = false).map Life.child

theorem mem_unreaped {journal : List Event} {c : Child} :
    c ∈ unreaped journal ↔ ∃ l ∈ lives journal, l.reaped = false ∧ l.child = c := by
  simp [unreaped, and_assoc]

/-- An event that is about no child's life. -/
theorem unreaped_append_of_enter {journal : List Event} {e : Event}
    (h : ∀ lives, e.enter lives = lives) : unreaped (journal ++ [e]) = unreaped journal := by
  rw [unreaped, lives_append, h]
  rfl

theorem unreaped_append_forked (journal : List Event) (pid : Int) (jobClass : JobClass) :
    unreaped (journal ++ [.forked pid jobClass]) = unreaped journal ++ [{ pid := pid }] := by
  simp [unreaped, lives_append, Event.enter, Life.child]

theorem unreaped_append_died (journal : List Event) (death : Int × Ending) :
    unreaped (journal ++ [.died death.1 death.2]) = (unreaped journal).map (Child.die death) := by
  have hchild : Life.child ∘ Life.die death.1 death.2 = Child.die death ∘ Life.child := by
    funext l
    unfold Function.comp Life.die Life.child Child.die
    split <;> rfl
  have hreaped : (fun l : Life => decide (l.reaped = false)) ∘ Life.die death.1 death.2 =
      fun l => decide (l.reaped = false) := by
    funext l
    simp
  rw [unreaped, lives_append, Event.enter, List.filter_map, hreaped, List.map_map, hchild,
    ← List.map_map]
  rfl

/-- When children are reaped, those with another process id are left. -/
theorem filter_reap (ls : List Life) (pid : Int) :
    (((ls.map (Life.reap (some pid))).filter fun l => l.reaped = false).map Life.child) =
      ((ls.filter fun l => l.reaped = false).map Life.child).filter (·.pid ≠ pid) := by
  induction ls with
  | nil => rfl
  | cons l ls ih =>
      by_cases hpid : pid = l.pid
      · cases hreaped : l.reaped <;> simp_all [Life.reap, Life.child]
      · have hne : l.pid ≠ pid := Ne.symm hpid
        cases hreaped : l.reaped <;> simp_all [Life.reap, Life.child]

theorem unreaped_append_reaped (journal : List Event) {status : WaitStatus} {pid : Int}
    (hpid : status.pid? = some pid) (listed : Option JobClass) :
    unreaped (journal ++ [.reaped status listed]) = (unreaped journal).filter (·.pid ≠ pid) := by
  rw [unreaped, lives_append, Event.enter, hpid, filter_reap]
  rfl

/-- The classes of the children that are forked in a journal, in order. -/
def forkedClasses (journal : List Event) : List JobClass :=
  journal.filterMap fun
    | .forked _ jobClass => some jobClass
    | _ => none

theorem forkedClasses_append (journal journal' : List Event) :
    forkedClasses (journal ++ journal') = forkedClasses journal ++ forkedClasses journal' :=
  List.filterMap_append ..

/-- **Every fork begins one life**, and nothing else does. -/
theorem lives_classes (journal : List Event) :
    (lives journal).map (·.jobClass) = forkedClasses journal := by
  induction journal using List.reverseRecOn with
  | nil => rfl
  | append_singleton journal e ih =>
      rw [lives_append, forkedClasses_append, ← ih]
      cases e <;>
        simp [Event.enter, forkedClasses, List.map_map, Function.comp_def]

/-- A wait call is made for a foreground child that has not been reaped. -/
def Event.Needed (before : List Event) : Event → Prop
  | .waited => ∃ l ∈ lives before, l.jobClass = .foreground ∧ l.reaped = false
  | _ => True

namespace Supervisor

variable {σ : Type}

/-! ### What has happened since a moment -/

/-- What has happened since `s₀`, a moment at which no foreground job was listed. -/
structure Chronicle (s₀ : Supervisor σ) (events : List Event) (s : Supervisor σ) : Prop where
  journal : s.journal = s₀.journal ++ events
  /-- The kernel has some of the children of that moment, and those that are not over. -/
  children : ∃ olds, (olds.map (·.pid)).Sublist (s₀.children.map (·.pid)) ∧
    s.children = olds ++ unreaped events
  ended : ∀ l ∈ lives events, l.reaped = true → l.ending.isSome = true
  listed : ∀ l ∈ lives events, l.reaped = false →
    ∃ job ∈ s.jobs.running, job.pid = l.pid ∧ job.jobClass = l.jobClass
  /-- No foreground job is listed but for children of the time since then. -/
  own : ∀ job ∈ s.jobs.running, job.jobClass = .foreground →
    ∃ l ∈ lives events, l.reaped = false ∧ l.pid = job.pid ∧ l.jobClass = .foreground
  needed : ∀ before e after, events = before ++ e :: after → e.Needed before

section Keeping

variable {s₀ s s' : Supervisor σ} {events : List Event}

/-- At the moment itself nothing has happened yet. -/
theorem Chronicle.refl (h : s.jobs.hasForeground = false) : Chronicle s [] s where
  journal := (List.append_nil _).symm
  children := ⟨s.children, List.Sublist.refl _, (List.append_nil _).symm⟩
  ended := by simp [lives]
  listed := by simp [lives]
  own job hjob hclass := by
    have hforeground := JobTable.hasForeground_iff.2 ⟨job, hjob, hclass⟩
    rw [h] at hforeground
    cases hforeground
  needed := by simp

/-- The chronicle depends on the journal, the children and the running list alone. -/
theorem Chronicle.of_eq (h : Chronicle s₀ events s) (hjournal : s'.journal = s.journal)
    (hchildren : s'.children = s.children) (hrunning : s'.jobs.running = s.jobs.running) :
    Chronicle s₀ events s' :=
  ⟨by rw [hjournal, h.journal], by rw [hchildren]; exact h.children, h.ended,
    by rw [hrunning]; exact h.listed, by rw [hrunning]; exact h.own, h.needed⟩

theorem Chronicle.setHost (h : Chronicle s₀ events s) (host : σ) :
    Chronicle s₀ events { s with host := host } :=
  h.of_eq rfl rfl rfl

/-- Nothing more has happened. -/
theorem Chronicle.still (h : Chronicle s₀ events s) : ∃ more, Chronicle s₀ (events ++ more) s :=
  ⟨[], by rwa [List.append_nil]⟩

/-- An event that is about no child's life changes nothing else. -/
theorem Chronicle.note (h : Chronicle s₀ events s) {e : Event}
    (henter : ∀ lives, e.enter lives = lives) (he : e.Needed events)
    (hjournal : s'.journal = s.journal ++ [e]) (hchildren : s'.children = s.children)
    (hrunning : s'.jobs.running = s.jobs.running) : Chronicle s₀ (events ++ [e]) s' := by
  have hlives : lives (events ++ [e]) = lives events := by rw [lives_append, henter]
  refine ⟨by rw [hjournal, h.journal, List.append_assoc], ?_, by rw [hlives]; exact h.ended,
    by rw [hlives, hrunning]; exact h.listed, by rw [hlives, hrunning]; exact h.own,
    forall_events_append h.needed he⟩
  rw [hchildren, unreaped_append_of_enter henter]
  exact h.children

/-- A death ends the life of the child that dies. -/
theorem Chronicle.bury (h : Chronicle s₀ events s) (death : Int × Ending) :
    ∃ more, Chronicle s₀ (events ++ more) (s.bury death) := by
  -- a death of nobody, or of somebody who is dead already, is not noted
  by_cases hliving : (s.children.any fun c => c.pid = death.1 ∧ c.ending = none) = true
  · refine ⟨[.died death.1 death.2], ?_⟩
    have hlives : lives (events ++ [.died death.1 death.2]) =
        (lives events).map (Life.die death.1 death.2) := lives_append events _
    have hpids : ∀ children : List Child,
        (children.map (Child.die death)).map (·.pid) = children.map (·.pid) := by
      intro children
      rw [List.map_map]
      exact List.map_congr_left fun c _ => c.die_pid death
    obtain ⟨olds, holds, hchildren⟩ := h.children
    rw [Supervisor.bury, if_pos hliving]
    exact {
      journal := by simp [h.journal]
      children := by
        refine ⟨olds.map (Child.die death), by rwa [hpids], ?_⟩
        rw [unreaped_append_died, ← List.map_append, ← hchildren]
        rfl
      ended := by
        rw [hlives, List.forall_mem_map]
        intro l hl hreaped
        rw [Life.die_reaped] at hreaped
        exact Life.die_ending_isSome (h.ended l hl hreaped)
      listed := by
        rw [hlives, List.forall_mem_map]
        simpa using h.listed
      own := by
        intro job hjob hclass
        obtain ⟨l, hl, hreaped, hpid, hforeground⟩ := h.own job hjob hclass
        refine ⟨l.die death.1 death.2, hlives ▸ List.mem_map_of_mem hl, ?_⟩
        simpa using ⟨hreaped, hpid, hforeground⟩
      needed := forall_events_append h.needed trivial }
  · have hnothing : s.bury death = s := by rw [Supervisor.bury, if_neg hliving]
    exact ⟨[], by rwa [hnothing, List.append_nil]⟩

/-- A child that is reaped is over. -/
theorem Chronicle.reaped (h : Chronicle s₀ events s) (haccounted : s.Accounted) {pid : Int}
    {ending : Ending} {status : WaitStatus} {rest : List Child}
    (hdead : unlinkDead s.children = some ((pid, ending), rest)) (hpid : status.pid? = some pid) :
    Chronicle s₀ (events ++ [.reaped status (s.jobs.classOf? pid)]) (s.reaped pid status rest) := by
  obtain ⟨olds, holds, hchildren⟩ := h.children
  have hlives : lives (events ++ [.reaped status (s.jobs.classOf? pid)]) =
      (lives events).map (Life.reap (some pid)) := by
    rw [lives_append, Event.enter, hpid]
  have hrunning : ∀ job, job ∈ (s.reaped pid status rest).jobs.running ↔
      job ∈ s.jobs.running ∧ job.pid ≠ pid := fun job =>
    JobTable.mem_running_record_iff hpid haccounted.once
  have hdistinct := haccounted.truthful.distinct
  have hrest := unlinkDead_eq_filter hdistinct hdead
  exact {
    journal := by simp [Supervisor.reaped, h.journal]
    children := by
      refine ⟨olds.filter (·.pid ≠ pid), ?_, ?_⟩
      · exact (List.filter_sublist.map _).trans holds
      · rw [unreaped_append_reaped events hpid, ← List.filter_append, ← hchildren, ← hrest]
        rfl
    -- a life that has just been reaped is that of the child, and this one had ended
    ended := by
      rw [hlives, List.forall_mem_map]
      intro l hl hreaped
      rw [Life.reap_ending]
      cases hbefore : l.reaped with
      | true => exact h.ended l hl hbefore
      | false =>
          obtain rfl : pid = l.pid := by simpa [Life.reap_reaped, hbefore] using hreaped
          have hchild : l.child ∈ s.children :=
            hchildren ▸ List.mem_append_right _ (mem_unreaped.2 ⟨l, hl, hbefore, rfl⟩)
          have heq : l.child = ⟨l.pid, some ending⟩ :=
            List.inj_on_of_nodup_map hdistinct hchild (mem_of_unlinkDead hdead) rfl
          have hending : l.ending = some ending := congrArg Child.ending heq
          rw [hending]
          rfl
    -- the job that leaves the table is that of the child and of no other life
    listed := by
      rw [hlives, List.forall_mem_map]
      intro l hl hreaped
      rw [Life.reap_reaped, Bool.or_eq_false_iff, decide_eq_false_iff_not] at hreaped
      obtain ⟨job, hjob, hjob_pid, hclass⟩ := h.listed l hl hreaped.2
      refine ⟨job, (hrunning job).2 ⟨hjob, ?_⟩, by simpa using ⟨hjob_pid, hclass⟩⟩
      rintro rfl
      exact hreaped.1 (congrArg some hjob_pid)
    own := by
      intro job hjob hclass
      obtain ⟨hjob, hne⟩ := (hrunning job).1 hjob
      obtain ⟨l, hl, hreaped, hl_pid, hforeground⟩ := h.own job hjob hclass
      refine ⟨l.reap (some pid), hlives ▸ List.mem_map_of_mem hl, ?_, by simpa using hl_pid,
        by simpa using hforeground⟩
      rw [Life.reap_reaped, hreaped, Bool.or_false, decide_eq_false_iff_not]
      rintro heq
      exact hne (hl_pid ▸ (Option.some.inj heq).symm)
    needed := forall_events_append h.needed trivial }

variable [Host σ] {launching : Assignment → Prop}

/-- A child that is launched begins a life, and it is listed. -/
theorem Chronicle.launched (h : Chronicle s₀ events s) {a : Assignment} {jobs : JobTable}
    (hregister : s.jobs.register s.choosePid a.jobClass = some jobs) :
    Chronicle s₀ (events ++ [.forked s.choosePid a.jobClass]) { s.forked a with jobs := jobs } := by
  obtain ⟨-, rfl⟩ := JobTable.register_eq_some_iff.1 hregister
  obtain ⟨olds, holds, hchildren⟩ := h.children
  have hlives : lives (events ++ [.forked s.choosePid a.jobClass]) =
      lives events ++ [{ pid := s.choosePid, jobClass := a.jobClass }] := lives_append events _
  exact {
    journal := by simp [forked, h.journal]
    children := ⟨olds, holds, by simp [forked, unreaped_append_forked, hchildren]⟩
    ended := by
      rw [hlives, List.forall_mem_append]
      exact ⟨h.ended, by simp⟩
    listed := by
      rw [hlives, List.forall_mem_append]
      refine ⟨fun l hl hreaped => ?_, by simp⟩
      obtain ⟨job, hjob, hlisted⟩ := h.listed l hl hreaped
      exact ⟨job, List.mem_append_left _ hjob, hlisted⟩
    own := by
      intro job hjob hclass
      rcases List.mem_append.1 hjob with hjob | hjob
      · obtain ⟨l, hl, hown⟩ := h.own job hjob hclass
        exact ⟨l, hlives ▸ List.mem_append_left _ hl, hown⟩
      · obtain rfl := List.mem_singleton.1 hjob
        exact ⟨_, hlives ▸ List.mem_append_right _ (List.mem_singleton_self _), rfl, rfl, hclass⟩
    needed := forall_events_append h.needed trivial }

/-- **Every move keeps the journal, the kernel and the job table in agreement.** -/
theorem Moves.chronicle (hmove : Moves launching s s') (haccounted : s.Accounted)
    (h : Chronicle s₀ events s) : ∃ more, Chronicle s₀ (events ++ more) s' := by
  cases hmove with
  | drift held =>
      refine foldl_bury (I := fun t => ∃ more, Chronicle s₀ (events ++ more) t) ?_ _ _
        (h.setHost _).still
      rintro t death ⟨more, ht⟩
      obtain ⟨rest, hrest⟩ := ht.bury death
      exact ⟨more ++ rest, by rwa [← List.append_assoc]⟩
  | pipe | write | kill => exact (h.setHost _).still
  | signal signal =>
      have hset : Chronicle s₀ events { s with signal := signal } := h.of_eq rfl rfl rfl
      exact hset.still
  | builtin name => exact ⟨[.builtin name], h.note (fun _ => rfl) trivial rfl rfl rfl⟩
  | launch _ hregister => exact ⟨_, h.launched hregister⟩
  | wait hforeground =>
      obtain ⟨job, hjob, hclass⟩ := JobTable.hasForeground_iff.1 hforeground
      obtain ⟨l, hl, hreaped, -, hl_class⟩ := h.own job hjob hclass
      have hneeded : Event.waited.Needed events := ⟨l, hl, hl_class, hreaped⟩
      exact ⟨[.waited], h.note (fun _ => rfl) hneeded rfl rfl rfl⟩
  | wake => exact (h.setHost _).bury _
  | reap hdead hdecode => exact ⟨_, h.reaped haccounted hdead (Ending.decode_ok hdecode)⟩

/-- Stopping early keeps it too, if all deaths can be decoded when a call has failed. -/
theorem Stops.chronicle {stop : Stop} (hstop : Stops launching s stop s')
    (haccounted : s.Accounted) (h : Chronicle s₀ events s)
    (hnamed : ∀ e, stop = .failed e → Named s'.journal) :
    s'.Accounted ∧ ∃ more, Chronicle s₀ (events ++ more) s' := by
  cases hstop with
  | refused | childless => exact ⟨haccounted, h.still⟩
  | lose | struck => exact ⟨haccounted.setHost _, (h.setHost _).still⟩
  | doze => exact ⟨(haccounted.setHost _).bury _, (h.setHost _).bury _⟩
  | relisted _ hregister =>
      exact absurd hregister (register_choosePid_ne_none haccounted.children _)
  | undecodable hdead hdecode =>
      exact absurd (fun e he => hnamed _ rfl e (List.mem_append_left _ he))
        (haccounted.truthful.not_named hdead hdecode)

/-- **Any number of moves keep the agreement.** -/
theorem Reaches.chronicle (h : Reaches launching s s') (haccounted : s.Accounted)
    (hchronicle : Chronicle s₀ events s) :
    s'.Accounted ∧ ∃ more, Chronicle s₀ (events ++ more) s' := by
  refine Reaches.keeps (I := fun t => t.Accounted ∧ ∃ more, Chronicle s₀ (events ++ more) t) h ?_
    ⟨haccounted, hchronicle.still⟩
  rintro u v hmove ⟨hu, more, hchronicle⟩
  obtain ⟨rest, hrest⟩ := hmove.chronicle hu hchronicle
  exact ⟨hmove.accounted hu, more ++ rest, by rwa [← List.append_assoc]⟩

/-- **So does a computation that may stop early**, under the same condition. -/
theorem Comes.chronicle {α : Type} {r : Except Stop α} (h : Comes launching s r s')
    (haccounted : s.Accounted) (hchronicle : Chronicle s₀ events s)
    (hnamed : ∀ e, r = .error (.failed e) → Named s'.journal) :
    s'.Accounted ∧ ∃ more, Chronicle s₀ (events ++ more) s' := by
  cases r with
  | ok a => exact Reaches.chronicle h haccounted hchronicle
  | error stop =>
      obtain ⟨s₁, s₂, h₁, hstop, h₂⟩ := h
      have hnamed₂ : ∀ e, stop = .failed e → Named s₂.journal := by
        rintro e rfl e' he'
        refine hnamed e rfl e' ?_
        exact h₂.keeps (I := fun t => e' ∈ t.journal) (fun _ _ hmove => hmove.mem_journal) he'
      obtain ⟨haccounted₁, before, h₁⟩ := h₁.chronicle haccounted hchronicle
      obtain ⟨haccounted₂, here, h₂'⟩ := hstop.chronicle haccounted₁ h₁ hnamed₂
      obtain ⟨haccounted', after, h'⟩ := h₂.chronicle haccounted₂ h₂'
      exact ⟨haccounted', before ++ (here ++ after), by simpa only [List.append_assoc] using h'⟩

end Keeping

section Reading

variable {s₀ s : Supervisor σ} {events : List Event}

/-- **Without a listed foreground job all foreground lives are over.** -/
theorem Chronicle.over (h : Chronicle s₀ events s) (hforeground : s.jobs.hasForeground = false) :
    ∀ l ∈ lives events, l.jobClass = .foreground → l.Over := by
  intro l hl hclass
  cases hreaped : l.reaped with
  | true => exact ⟨hreaped, h.ended l hl hreaped⟩
  | false =>
      obtain ⟨job, hjob, -, hjob_class⟩ := h.listed l hl hreaped
      have hlisted := JobTable.hasForeground_iff.2 ⟨job, hjob, hjob_class.trans hclass⟩
      rw [hforeground] at hlisted
      cases hlisted

/-- While a foreground job is listed and no child is dead, some foreground child lives. -/
theorem Chronicle.alive (h : Chronicle s₀ events s) (hforeground : s.jobs.hasForeground = true)
    (hdead : s.hasDead = false) :
    ∃ l ∈ lives events, l.jobClass = .foreground ∧ l.ending = none := by
  obtain ⟨job, hjob, hclass⟩ := JobTable.hasForeground_iff.1 hforeground
  obtain ⟨l, hl, hreaped, -, hl_class⟩ := h.own job hjob hclass
  obtain ⟨olds, -, hchildren⟩ := h.children
  rw [hasDead_eq_false_iff, unlinkDead_eq_none_iff] at hdead
  refine ⟨l, hl, hl_class, hdead l.child ?_⟩
  exact hchildren ▸ List.mem_append_right _ (mem_unreaped.2 ⟨l, hl, hreaped, rfl⟩)

end Reading

end Supervisor

end JobShell
