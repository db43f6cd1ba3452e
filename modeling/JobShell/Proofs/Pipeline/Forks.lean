/-
**The children of a pipeline.**

Only launching a command forks a child.  So when a pipeline that is run by children comes to its end,
one child has been forked for each of its commands, under the class of the pipeline, and no other.
Between the first of these forks and the last nothing is reaped, so the stages of a foreground
pipeline are listed when the shell begins to wait for them.

Main definitions:

* `JobShell.Supervisor.Adds` — the journal has grown by events of a kind;
* `JobShell.Supervisor.Staffed` — children of some classes have been forked, and every class that was
  listed still is;
* `JobShell.Shell.LaunchesOnly` — a computation that forks such children if it comes to its end;
* `JobShell.Shell.Finishes` — how a pipeline that is run by children ends.

Main results:

* `JobShell.Supervisor.Moves.adds`, `JobShell.Supervisor.Stops.adds` — what moves and stops add to
  the journal;
* `JobShell.Shell.spawnStages_launches` — launching the commands of a pipeline;
* `JobShell.Shell.runForked_finishes` — **one child for each command, and a wait that is over with the
  last of them.**
-/

import JobShell.Proofs.Job.Lives
import JobShell.Proofs.Job.Waiting
import JobShell.Proofs.Pipeline.Frame
import JobShell.Proofs.Running

set_option autoImplicit false

namespace JobShell

/-! ### What is added to the journal -/

/-- An event that is possible while children are launched with some assignments: a child is forked
under the class of one of them, and a wait call is made if there is reason to. -/
def Event.Within (launching : Assignment → Prop) (waits : Prop) : Event → Prop
  | .forked _ jobClass => ∃ a, launching a ∧ a.jobClass = jobClass
  | .waited => waits
  | _ => True

namespace Supervisor

variable {σ : Type} {s t u : Supervisor σ} {P : Event → Prop}

/-- The journal has grown by events of a kind. -/
def Adds (P : Event → Prop) (s t : Supervisor σ) : Prop :=
  ∃ events, t.journal = s.journal ++ events ∧ ∀ e ∈ events, P e

theorem Adds.refl (s : Supervisor σ) : Adds P s s := ⟨[], by simp⟩

theorem Adds.trans (h : Adds P s t) (h' : Adds P t u) : Adds P s u := by
  obtain ⟨events, hevents, hP⟩ := h
  obtain ⟨events', hevents', hP'⟩ := h'
  refine ⟨events ++ events', by rw [hevents', hevents, List.append_assoc], ?_⟩
  rw [List.forall_mem_append]
  exact ⟨hP, hP'⟩

theorem Adds.mono {P' : Event → Prop} (h : Adds P s t) (hle : ∀ e, P e → P' e) : Adds P' s t := by
  obtain ⟨events, hevents, hP⟩ := h
  exact ⟨events, hevents, fun e he => hle e (hP e he)⟩

theorem Adds.single {e : Event} (h : t.journal = s.journal ++ [e]) (he : P e) : Adds P s t :=
  ⟨[e], h, by simpa using he⟩

theorem bury_adds (death : Int × Ending) (hP : ∀ pid ending, P (.died pid ending)) :
    Adds P s (s.bury death) := by
  unfold bury
  split
  · exact .single rfl (hP _ _)
  · exact .refl s

variable [Host σ] {launching : Assignment → Prop}

theorem drifted_adds (held : Descriptors) (hP : ∀ pid ending, P (.died pid ending)) :
    Adds P s (s.drifted held) :=
  foldl_bury (I := fun t => Adds P s t) (fun _ death h => h.trans (bury_adds death hP)) _ _
    ⟨[], by simp⟩

/-- **What a move adds to the journal.** -/
theorem Moves.adds (h : Moves launching s t) :
    Adds (Event.Within launching (s.jobs.hasForeground = true)) s t := by
  cases h with
  | drift held => exact drifted_adds held fun _ _ => trivial
  | pipe | write | kill | signal => exact ⟨[], by simp⟩
  | builtin | reap => exact .single rfl trivial
  | launch ha => exact .single rfl ⟨_, ha, rfl⟩
  | wait hforeground => exact .single rfl hforeground
  | wake => exact bury_adds _ fun _ _ => trivial

/-- What is added when a computation stops early. -/
theorem Stops.adds {stop : Stop} (h : Stops launching s stop t) :
    Adds (Event.Within launching (s.jobs.hasForeground = true)) s t := by
  cases h with
  | refused | childless | lose | struck => exact ⟨[], by simp⟩
  | undecodable => exact .single rfl trivial
  | doze => exact bury_adds _ fun _ _ => trivial
  | relisted ha => exact .single rfl ⟨_, ha, rfl⟩

/-- **Where only background jobs are launched no wait call is made**, if no foreground job was
listed before. -/
theorem Proceeds.unwaited {α : Type} {r : Except Stop α}
    (h : Proceeds (·.jobClass = .background) s r t) (hs : s.jobs.hasForeground = false) :
    t.jobs.hasForeground = false ∧ Adds (· ≠ .waited) s t := by
  have hadds : ∀ u v : Supervisor σ, u.jobs.hasForeground = false →
      Adds (Event.Within (·.jobClass = .background) (u.jobs.hasForeground = true)) u v →
        Adds (· ≠ .waited) s u → Adds (· ≠ .waited) s v := by
    intro u v hu huv h
    refine h.trans (huv.mono ?_)
    rintro e he rfl
    rw [Event.Within, hu] at he
    cases he
  refine Proceeds.keeps (I := fun v => v.jobs.hasForeground = false ∧ Adds (· ≠ .waited) s v) h
    (fun u v hmove hu => ?_) (fun u stop v hstop hu => ?_) ⟨hs, .refl s⟩
  · exact ⟨hmove.background hu.1, hadds u v hu.1 hmove.adds hu.2⟩
  · exact ⟨by rw [hstop.jobs_eq]; exact hu.1, hadds u v hu.1 hstop.adds hu.2⟩

omit [Host σ] in
/-- The journal has grown by no fork. -/
theorem Adds.forkedClasses (h : Adds (fun e => ∀ pid c, e ≠ .forked pid c) s t) :
    forkedClasses t.journal = forkedClasses s.journal := by
  obtain ⟨events, hevents, hforkless⟩ := h
  have hnone : JobShell.forkedClasses events = [] := by
    refine List.filterMap_eq_nil_iff.2 fun e he => ?_
    cases e with
    | forked pid c => exact absurd rfl (hforkless _ he pid c)
    | _ => rfl
  rw [hevents, forkedClasses_append, hnone, List.append_nil]

/-- **Where no child is launched none is forked**, of whatever class. -/
theorem Proceeds.forkedClasses {α : Type} {r : Except Stop α} (h : Proceeds (fun _ => False) s r t) :
    forkedClasses t.journal = forkedClasses s.journal := by
  have hforkless : ∀ {waits : Prop} (u v : Supervisor σ),
      Adds (Event.Within (fun _ => False) waits) u v →
        Adds (fun e => ∀ pid c, e ≠ .forked pid c) u v := by
    intro waits u v huv
    refine huv.mono ?_
    rintro e he pid c rfl
    obtain ⟨a, ha, -⟩ := he
    exact ha
  refine Adds.forkedClasses ?_
  exact h.keeps (fun u v hmove hu => hu.trans (hforkless u v hmove.adds))
    (fun u stop v hstop hu => hu.trans (hforkless u v hstop.adds)) (.refl s)

/-! ### Launching -/

/-- Children of some classes have been forked, and every class of which a job was listed still has
one. -/
structure Staffed (classes : List JobClass) (s t : Supervisor σ) : Prop where
  forks : JobShell.forkedClasses t.journal = JobShell.forkedClasses s.journal ++ classes
  listed : ∀ c, (c ∈ classes ∨ ∃ job ∈ s.jobs.running, job.jobClass = c) →
    ∃ job ∈ t.jobs.running, job.jobClass = c

omit [Host σ] in
theorem Staffed.of_eq (hjournal : t.journal = s.journal) (hjobs : t.jobs = s.jobs) :
    Staffed [] s t :=
  ⟨by rw [hjournal, List.append_nil], fun c h => by simpa [hjobs] using h⟩

omit [Host σ] in
theorem Staffed.trans {classes classes' : List JobClass} (h : Staffed classes s t)
    (h' : Staffed classes' t u) : Staffed (classes ++ classes') s u := by
  refine ⟨by rw [h'.forks, h.forks, List.append_assoc], fun c hc => h'.listed c ?_⟩
  rw [List.mem_append] at hc
  rcases hc with (hc | hc) | hc
  · exact .inr (h.listed c (.inl hc))
  · exact .inl hc
  · exact .inr (h.listed c (.inr hc))

/-- While time passes no job is booked. -/
theorem drifted_staffs (held : Descriptors) : Staffed [] s (s.drifted held) := by
  have hforkless : Adds (fun e => ∀ pid c, e ≠ .forked pid c) s (s.drifted held) :=
    drifted_adds held fun _ _ _ _ => nofun
  exact ⟨by rw [hforkless.forkedClasses, List.append_nil],
    fun c h => by simpa using h⟩

end Supervisor

open Supervisor (Staffed Proceeds)

namespace Shell

variable {σ α β : Type} {classes classes' : List JobClass}

/-- A computation that, if it comes to its end, has launched children of some classes and reaped
none. -/
def LaunchesOnly (classes : List JobClass) (body : ShellM σ α) : Prop :=
  ∀ s, Ensures (· = s) body
    (OkOr (fun _ t => Staffed classes s.toSupervisor t.toSupervisor) fun _ _ => True)

theorem LaunchesOnly.bind {x : ShellM σ β} {f : β → ShellM σ α} (hx : LaunchesOnly classes x)
    (hf : ∀ b, LaunchesOnly classes' (f b)) : LaunchesOnly (classes ++ classes') (x >>= f) := by
  intro s
  refine Ensures.bind _ (hx s) (fun b => Ensures.of_eq fun t ht => ?_) fun _ _ h => h
  refine (hf b t).post ?_
  rintro (stop | a) u hu
  · trivial
  · exact Staffed.trans ht hu

theorem LaunchesOnly.throw (stop : Stop) : LaunchesOnly classes (throw stop : ShellM σ α) := fun _ =>
  Ensures.ofThrow fun _ _ => trivial

theorem LaunchesOnly.get_bind {f : Shell σ → ShellM σ α} (h : ∀ s, LaunchesOnly classes (f s)) :
    LaunchesOnly classes (get >>= f) := by
  intro s
  refine Ensures.get_bind ?_
  rintro t rfl
  exact h t t

theorem LaunchesOnly.releasing {fds : List Nat} {body : ShellM σ α} (h : LaunchesOnly classes body) :
    LaunchesOnly classes (releasing fds body) := fun s =>
  Ensures.releasing (h s) (fun _ _ ht => ht) fun _ _ _ => trivial

theorem close_launches (fd : Nat) : LaunchesOnly [] (close fd : ShellM σ Unit) := by
  refine .get_bind fun s => ?_
  simp only
  split
  · exact fun _ => Ensures.ofModify fun _ ht => ht ▸ .of_eq rfl rfl
  · exact .throw _

variable [Host σ]

theorem enterCall_staffs (call : SystemCall) (held : Descriptors) (s : Supervisor σ) :
    Ensures (· = s) (Supervisor.enterCall held call)
      (OkOr (fun _ t => Staffed [] s t) fun _ _ => True) := by
  refine Ensures.modify_bind ?_
  rintro s rfl
  change Ensures (· = s.drifted held) _ _
  refine Ensures.get_bind ?_
  rintro t rfl
  cases Host.refuses call (s.drifted held).host with
  | some errno => exact Ensures.ofThrow fun _ _ => trivial
  | none => exact Ensures.ofPure fun _ ht => ht ▸ Supervisor.drifted_staffs held

omit [Host σ] in
theorem supervise_launches {body : Descriptors → Supervised σ α}
    (h : ∀ held s, Ensures (· = s) (body held)
      (OkOr (fun _ t => Staffed classes s t) fun _ _ => True)) :
    LaunchesOnly classes (supervise body) := by
  refine fun s => Ensures.supervise ?_
  rintro s rfl
  intro v hv
  have hbody := h s.descriptors s.toSupervisor v hv
  revert hbody
  cases ((body s.descriptors).run v).1 <;> exact id

theorem makePipe_launches : LaunchesOnly [] (makePipe : ShellM σ (Nat × Nat)) := by
  refine LaunchesOnly.bind (supervise_launches (enterCall_staffs .pipe)) fun _ s => Ensures.get_bind ?_
  rintro s rfl
  by_cases hroom : s.descriptors.room < 2
  · rw [if_pos hroom]
    exact Ensures.throw_bind fun _ _ => trivial
  · rw [if_neg hroom]
    refine Ensures.set_bind fun _ _ => Ensures.ofPure ?_
    rintro _ rfl
    exact .of_eq rfl rfl

/-- A child that is forked and listed is launched. -/
theorem register_staffs (a : Assignment) (held : Descriptors) (s : Supervisor σ) :
    Ensures (· = s)
      (do let pid ← Supervisor.fork held a; Supervisor.register pid a.jobClass)
      (OkOr (fun _ t => Staffed [a.jobClass] s t) fun _ _ => True) := by
  refine Ensures.bind (OkOr (fun pid t => ∃ u, Staffed [] s u ∧ t = u.forked a) fun _ _ => True)
    ?_ (fun pid => Ensures.get_bind ?_) fun _ _ _ => trivial
  · refine Ensures.bind _ (enterCall_staffs .fork held s) ?_ fun _ _ _ => trivial
    refine fun _ => Ensures.get_bind fun u hu => Ensures.modify_bind ?_
    rintro u rfl
    refine Ensures.modify_bind ?_
    rintro _ rfl
    refine Ensures.ofPure ?_
    rintro _ rfl
    exact ⟨u, hu, rfl⟩
  · rintro _ ⟨u, hu, rfl⟩
    cases hregister : (u.forked a).jobs.register pid a.jobClass with
    | none => exact Ensures.ofThrow fun _ _ => trivial
    | some jobs =>
        obtain ⟨-, rfl⟩ := JobTable.register_eq_some_iff.1 hregister
        refine Ensures.ofSet fun _ _ => Staffed.trans hu ⟨forkedClasses_append .., ?_⟩
        rintro c (hc | ⟨job, hjob, hc⟩)
        · obtain rfl := List.mem_singleton.1 hc
          exact ⟨_, List.mem_append_right _ (List.mem_singleton_self _), rfl⟩
        · exact ⟨job, List.mem_append_left _ hjob, hc⟩

/-- A command that is launched is forked and listed. -/
theorem launch_launches (command : Command) (input : Nat) (pipe : Option (Nat × Nat))
    (jobClass : JobClass) :
    LaunchesOnly [jobClass] (launch command input pipe jobClass : ShellM σ Unit) :=
  .get_bind fun _ => supervise_launches (register_staffs _)

/-- **Launching the commands of a pipeline** forks a child for each of them. -/
theorem spawnStages_launches (jobClass : JobClass) (input : Nat) (commands : List Command) :
    LaunchesOnly (List.replicate commands.length jobClass)
      (spawnStages jobClass input commands : ShellM σ Unit) := by
  induction commands generalizing input with
  | nil => exact close_launches input
  | cons command rest ih =>
      cases rest with
      | nil => exact .bind (.releasing (launch_launches _ _ _ _)) fun _ => close_launches input
      | cons next rest =>
          refine (LaunchesOnly.releasing makePipe_launches).bind fun ⟨reader, writer⟩ => ?_
          refine (LaunchesOnly.releasing (launch_launches command _ _ jobClass)).bind fun _ => ?_
          exact (close_launches input).bind fun _ => (close_launches writer).bind fun _ => ih reader

/-! ### The pipeline as a whole -/

/-- A computation that launches nothing and comes back: if it comes to its end nothing has been
forked. -/
def Prepares (s : Shell σ) : Except Stop α → Shell σ → Prop :=
  OkOr (fun _ t => forkedClasses t.journal = forkedClasses s.journal) fun stop _ => stop.Prompt

omit [Host σ] in
/-- What is known of the outcome of a computation, and of its reasons to stop. -/
theorem StopsFor.and {stops : Stop → Prop} {s : Shell σ} {body : ShellM σ α}
    {ok : α → Shell σ → Prop} {Q : Except Stop α → Shell σ → Prop} (h : StopsFor stops body)
    (hbody : Ensures (· = s) body Q) (hok : ∀ a t, Q (.ok a) t → ok a t) :
    Ensures (· = s) body (OkOr ok fun stop _ => stops stop) := by
  refine (hbody.and (h.pre fun _ _ => trivial)).post ?_
  rintro (stop | a) t ⟨ht, hstops⟩
  · exact hstops
  · exact hok a t ht

theorem prepares {s : Shell σ} {body : ShellM σ α} (hstops : StopsFor Stop.Prompt body)
    (h : Ensures (· = s) body (ProceedsOn (fun _ => False) s)) :
    Ensures (· = s) body (Prepares s) :=
  StopsFor.and hstops h fun _ _ ht => Proceeds.forkedClasses ht

/-- How a pipeline ends that is run by children.  If it comes to its end, one child has been forked
for each command, and a foreground pipeline has come to its end with the last of them.  Only a
foreground pipeline may not come back: none of its children is dead then. -/
def Finishes (p : Pipeline) (s : Shell σ) : Except Stop Unit → Shell σ → Prop
  | .ok _, t =>
      forkedClasses t.journal =
          forkedClasses s.journal ++ List.replicate p.commands.length p.jobClass ∧
        (p.background = false →
          ∃ status, t.journal.getLast? = some (.reaped status (some .foreground)))
  | .error (.lost _), t =>
      p.background = false ∧ t.jobs.hasForeground = true ∧ t.hasDead = false
  | .error _, _ => True

omit [Host σ] in
theorem Finishes.of_prompt {p : Pipeline} {s t : Shell σ} {stop : Stop} (h : stop.Prompt) :
    Finishes p s (.error stop) t := by
  rcases stop with _ | _ | loss
  · trivial
  · trivial
  · exact h.elim

omit [Host σ] in
theorem Finishes.prepared {p : Pipeline} {s t u : Shell σ} {r : Except Stop Unit}
    (h : Finishes p t r u) (ht : forkedClasses t.journal = forkedClasses s.journal) :
    Finishes p s r u := by
  rcases r with (_ | _ | loss) | _
  · trivial
  · trivial
  · exact h
  · exact ⟨ht ▸ h.1, h.2⟩

omit [Host σ] in
theorem Finishes.setSignal {p : Pipeline} {s t : Shell σ} {r : Except Stop Unit}
    (h : Finishes p s r t) (signal : ChildSignal) :
    Finishes p s r { t with signal := signal } := by
  rcases r with (_ | _ | loss) | _
  · trivial
  · trivial
  · exact h
  · exact h

/-- Waiting for a foreground pipeline all of whose commands have been launched. -/
theorem waitForeground_finishes {p : Pipeline} {s t : Shell σ} (hforeground : p.background = false)
    (hforks : forkedClasses t.journal =
      forkedClasses s.journal ++ List.replicate p.commands.length p.jobClass)
    (hlisted : t.jobs.hasForeground = true) :
    Ensures (· = t) (supervise fun held => Supervisor.waitForeground held) (Finishes p s) := by
  have hforkless : Ensures (· = t) (supervise fun held => Supervisor.waitForeground held)
      (ProceedsOn (fun _ => False) t) :=
    supervise_proceeds fun held => (Supervisor.waitForeground_comes held).post fun _ _ h => h.1
  have hwaits : Ensures (· = t) (supervise fun held => Supervisor.waitForeground held)
      fun r u => Supervisor.Waits r u.toSupervisor := by
    refine Ensures.supervise ?_
    rintro _ rfl
    refine (Supervisor.waitForeground_waits _).pre ?_
    rintro _ rfl
    exact hlisted
  refine (hforkless.and hwaits).post ?_
  rintro ((_ | _ | loss) | _) u ⟨hu, hwaits⟩
  · trivial
  · trivial
  · exact ⟨hforeground, hwaits⟩
  · exact ⟨(Proceeds.forkedClasses hu).trans hforks, fun _ => hwaits⟩

/-- **Running a pipeline by children**: one child for each command, and a wait that is over with the
last of them. -/
theorem runForked_finishes {p : Pipeline} (hp : p.commands ≠ []) (s : Shell σ) :
    Ensures (· = s) (runForked p) (Finishes p s) := by
  refine Ensures.bind _ (prepares (duplicate_abstains 0).stopsFor (duplicate_proceeds 0)) ?_
    fun _ _ h => Finishes.of_prompt h
  refine fun input => Ensures.of_eq fun t (ht : _ = _) => ?_
  have hblock : Ensures (· = t) (releasing [input] (supervise fun held => Supervisor.block held))
      (Prepares t) :=
    prepares (Abstains.releasing (supervise_abstains Supervisor.block_prompt)).stopsFor
      (ProceedsOn.releasing (supervise_proceeds Supervisor.block_comes))
  refine Ensures.bind _ hblock ?_ fun _ _ h => Finishes.of_prompt h
  refine fun previous => Ensures.of_eq fun u (hu : _ = _) => Ensures.restoring ?_
  refine Ensures.post ?_ fun r v hv => (Finishes.prepared hv (hu.trans ht)).setSignal _
  have hreap : Ensures (· = u)
      (releasing [input] (supervise fun held => Supervisor.reapIfNotified held)) (Prepares u) :=
    prepares (Abstains.releasing (supervise_abstains Supervisor.reapIfNotified_prompt)).stopsFor
      (ProceedsOn.releasing (supervise_proceeds Supervisor.reapIfNotified_comes))
  refine Ensures.bind _ hreap ?_ fun _ _ h => Finishes.of_prompt h
  refine fun _ => Ensures.of_eq fun v (hv : _ = _) => ?_
  refine Ensures.post ?_ fun r w hw => Finishes.prepared hw hv
  have hspawn := StopsFor.and (spawnStages_abstains p.jobClass input p.commands).stopsFor
    (spawnStages_launches p.jobClass input p.commands v) fun _ _ h => h
  refine Ensures.bind _ hspawn ?_ fun _ _ h => Finishes.of_prompt h
  refine fun _ => Ensures.of_eq fun w hw => ?_
  by_cases hforeground : p.background = false
  · rw [if_pos hforeground]
    have hclass : p.jobClass = .foreground := by simp [Pipeline.jobClass, hforeground]
    -- the stages are listed, so there is something to wait for
    have hlisted : w.jobs.hasForeground = true := by
      refine JobTable.hasForeground_iff.2 (hw.listed _ (.inl ?_))
      rw [hclass, List.mem_replicate]
      exact ⟨by simpa using hp, rfl⟩
    exact waitForeground_finishes hforeground hw.forks hlisted
  · rw [if_neg hforeground]
    exact Ensures.ofPure fun t ht => ⟨ht ▸ hw.forks, fun h => absurd h hforeground⟩

end Shell

end JobShell
