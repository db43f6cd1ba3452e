/-
**A pipeline is launched as a whole or not at all, as far as descriptors go.**

A pipeline of one command takes one descriptor, and a longer one takes three at a time, however many
commands it has: what a pipe takes is given back before the next pipe is made.  So if the first pipe
can be made, all pipes can.  If it cannot, or if not even the standard input can be duplicated, the
shell stops before it forks the first child.

This is proved on hosts that let no call fail for reasons of their own, for a shell whose listed jobs
are children that it has not reaped.

Main definitions:

* `JobShell.Supervisor.Lulls` — time passes, and children are reaped;
* `JobShell.Supervisor.Enrolls` — a child is forked and listed for one command after another;
* `JobShell.Supervisor.Dispatches` — the same with the place of each command, and with the pipes;
* `JobShell.Supervisor.Untouched`, `JobShell.Supervisor.Enrolled` — what is left of either.

Main results:

* `JobShell.Shell.spawnStages_dispatches` — with room for three all commands are launched;
* `JobShell.Shell.runPipeline_whole` — **all of a pipeline is launched, or nothing of it.**
-/

import JobShell.Proofs.Containment
import JobShell.Proofs.Job.Outstanding
import JobShell.Proofs.Pipeline.Seats

set_option autoImplicit false

namespace JobShell

namespace Supervisor

variable {σ : Type} [Host σ] {s t u : Supervisor σ}

/-! ### While nothing is launched -/

/-- What happens to a supervisor that asks nothing of its host: time passes, the signal is blocked or
noticed, and a dead child is reaped. -/
inductive Lull : Supervisor σ → Supervisor σ → Prop where
  | drift (held : Descriptors) (s : Supervisor σ) : Lull s (s.drifted held)
  | signal (signal : ChildSignal) (s : Supervisor σ) : Lull s { s with signal := signal }
  | reap {pid : Int} {ending : Ending} {status : WaitStatus} {rest : List Child}
      {s : Supervisor σ} :
      unlinkDead s.children = some ((pid, ending), rest) → ending.decode pid = .ok status →
        Lull s (s.reaped pid status rest)

/-- Any number of such steps. -/
abbrev Lulls : Supervisor σ → Supervisor σ → Prop := Relation.ReflTransGen Lull

/-- The host is left to itself. -/
abbrev Drifts : σ → σ → Prop :=
  Relation.ReflTransGen fun host host' => ∃ held, host' = (Host.drift held host).2

/-- Nothing has been forked, nothing has been listed, and the host has been left to itself. -/
structure Untouched (s t : Supervisor σ) : Prop where
  host : Drifts s.host t.host
  forked : forkedPids t.journal = forkedPids s.journal
  running : ∀ job ∈ t.jobs.running, job ∈ s.jobs.running

theorem Lull.moves (h : Lull s t) (launching : Assignment → Prop) : Moves launching s t := by
  cases h with
  | drift held => exact .drift held s
  | signal signal => exact .signal signal s
  | reap hdead hdecode => exact .reap hdead hdecode

theorem Lulls.accounted (h : Lulls s t) (hs : s.Accounted) : t.Accounted := by
  induction h with
  | refl => exact hs
  | tail _ hlull ih => exact (hlull.moves fun _ => False).accounted ih

/-- **In a lull nothing is launched.** -/
theorem Lulls.untouched (h : Lulls s t) : Untouched s t := by
  induction h with
  | refl => exact ⟨.refl, rfl, fun _ hjob => hjob⟩
  | tail _ hlull ih =>
      cases hlull with
      | drift held =>
          refine ⟨ih.host.tail ⟨held, drifted_host held⟩, ?_, ?_⟩
          · rw [forkedPids_drifted, ih.forked]
          · rw [drifted_jobs]
            exact ih.running
      | signal => exact ⟨ih.host, ih.forked, ih.running⟩
      | reap hdead hdecode =>
          refine ⟨ih.host, ?_, ?_⟩
          · rw [reaped, forkedPids_append, ih.forked]
            exact List.append_nil _
          · intro job hjob
            exact ih.running job (JobTable.mem_running_of_record (Ending.decode_ok hdecode) hjob)

/-! ### Reaping in a lull -/

/-- Only time passes and children are reaped, unless a death cannot be decoded. -/
def Lulled (s : Supervisor σ) {α : Type} : Except Stop α → Supervisor σ → Prop :=
  OkOr (fun _ t => Lulls s t) fun _ t => ¬ Named t.journal

theorem reapAll_lulls (hs : s.Accounted) (held : Descriptors) (n : Nat) :
    Ensures (Lulls s) (reapAll held n) (Lulled s) := by
  induction n with
  | zero => exact Ensures.ofPure fun _ h => h
  | succ n ih =>
      -- a status that has been reaped is still to be recorded, which is the rest of its step
      refine Ensures.bind (OkOr
        (fun dead t => Lulls s
          { t with jobs := dead.elim t.jobs fun status => (t.jobs.record status).2 })
        fun _ t => ¬ Named t.journal) ?_ ?_ ?_
      · refine Ensures.modify_bind ?_
        intro t ht
        have hdrifted : Lulls s (t.drifted held) := ht.tail (.drift held t)
        refine (reapDead_unlinks (t.drifted held)).post ?_
        rintro (stop | _ | status) u h
        · obtain ⟨pid, ending, errno, rest, hdead, hdecode, -, rfl⟩ := h
          have hnot := (hdrifted.accounted hs).truthful.not_named hdead hdecode
          intro hnamed
          exact hnot fun e he => hnamed e (List.mem_append_left _ he)
        · exact h.1 ▸ hdrifted
        · obtain ⟨pid, ending, rest, hdead, hdecode, hu⟩ := h
          change Lulls s { u with jobs := (u.jobs.record status).2 }
          rw [hu]
          exact hdrifted.tail (.reap hdead hdecode)
      · rintro (_ | status)
        · exact Ensures.ofPure fun _ h => h
        · refine Ensures.modify_bind ?_
          intro t ht
          refine ih.pre ?_
          rintro _ rfl
          exact ht
      · intro stop t ht
        exact ht

theorem reapTerminated_lulls (hs : s.Accounted) (held : Descriptors) :
    Ensures (Lulls s) (reapTerminated held) (Lulled s) := by
  refine takeNotice_bind ?_
  intro t ht
  refine Ensures.get_bind ?_
  rintro _ rfl
  refine (reapAll_lulls hs held _).pre ?_
  rintro _ rfl
  exact ht.tail (.signal _ _)

/-- **Reaping before a launch** asks the host for nothing. -/
theorem reapIfNotified_lulls (hs : s.Accounted) (held : Descriptors) :
    Ensures (· = s) (reapIfNotified held) (Lulled s) := by
  refine takeNotice_bind ?_
  intro t ht
  have hcleared : Lulls s { t with signal := t.signal.clear } := by
    rw [← ht]
    exact Relation.ReflTransGen.single (.signal _ t)
  split
  · refine (reapTerminated_lulls hs held).pre ?_
    rintro _ rfl
    exact hcleared
  · refine Ensures.ofPure ?_
    rintro _ rfl
    exact hcleared

/-! ### Launching one command after another -/

/-- For one command after another a child is forked and listed.  Before each of them time passes,
and a pipe may be made. -/
inductive Enrolls (jobClass : JobClass) :
    List Command → List Int → Supervisor σ → Supervisor σ → Prop where
  | nil (s : Supervisor σ) : Enrolls jobClass [] [] s s
  | drift {commands : List Command} {pids : List Int} {s t : Supervisor σ} (held : Descriptors) :
      Enrolls jobClass commands pids (s.drifted held) t → Enrolls jobClass commands pids s t
  | pipe {commands : List Command} {pids : List Int} {s t : Supervisor σ} :
      Enrolls jobClass commands pids { s with host := (Host.newPipe s.host).2 } t →
        Enrolls jobClass commands pids s t
  | launch {a : Assignment} {commands : List Command} {jobs : JobTable} {pids : List Int}
      {s t : Supervisor σ} :
      a.jobClass = jobClass → s.jobs.register s.choosePid jobClass = some jobs →
        Enrolls jobClass commands pids { s.forked a with jobs := jobs } t →
          Enrolls jobClass (a.command :: commands) (s.choosePid :: pids) s t

/-- For one assignment after another a child is forked and listed.  Before each of them time passes,
and a pipe may be made. -/
inductive Dispatches :
    List Assignment → List Nat → List Int → Supervisor σ → Supervisor σ → Prop where
  | nil (s : Supervisor σ) : Dispatches [] [] [] s s
  | drift {as : List Assignment} {pipes : List Nat} {pids : List Int} {s t : Supervisor σ}
      (held : Descriptors) : Dispatches as pipes pids (s.drifted held) t → Dispatches as pipes pids s t
  | pipe {as : List Assignment} {pipes : List Nat} {pids : List Int} {s t : Supervisor σ} :
      Dispatches as pipes pids { s with host := (Host.newPipe s.host).2 } t →
        Dispatches as ((Host.newPipe s.host).1 :: pipes) pids s t
  | launch {a : Assignment} {as : List Assignment} {pipes : List Nat} {jobs : JobTable}
      {pids : List Int} {s t : Supervisor σ} :
      s.jobs.register s.choosePid a.jobClass = some jobs →
        Dispatches as pipes pids { s.forked a with jobs := jobs } t →
          Dispatches (a :: as) pipes (s.choosePid :: pids) s t

/-- The commands of the assignments, and nothing else of them. -/
theorem Dispatches.enrolls {as : List Assignment} {pipes : List Nat} {pids : List Int}
    {jobClass : JobClass} (h : Dispatches as pipes pids s t)
    (hclass : ∀ a ∈ as, a.jobClass = jobClass) :
    Enrolls jobClass (as.map (·.command)) pids s t := by
  induction h with
  | nil s => exact .nil s
  | drift held _ ih => exact .drift held (ih hclass)
  | pipe _ ih => exact .pipe (ih hclass)
  | launch hregister _ ih =>
      rw [List.forall_mem_cons] at hclass
      obtain ⟨rfl, hclass⟩ := hclass
      exact .launch rfl hregister (ih hclass)

/-- The children that have been forked and listed. -/
structure Enrolled (jobClass : JobClass) (commands : List Command) (pids : List Int)
    (s t : Supervisor σ) : Prop where
  length : pids.length = commands.length
  forked : forkedPids t.journal = forkedPids s.journal ++ pids
  running : t.jobs.running = s.jobs.running ++ pids.map fun pid => ⟨pid, jobClass, .running⟩

/-- **For each command there is a child, and it is listed.** -/
theorem Enrolls.enrolled {jobClass : JobClass} {commands : List Command} {pids : List Int}
    (h : Enrolls jobClass commands pids s t) : Enrolled jobClass commands pids s t := by
  induction h with
  | nil s => exact ⟨rfl, by simp, by simp⟩
  | drift held _ ih =>
      obtain ⟨hlength, hforked, hrunning⟩ := ih
      rw [forkedPids_drifted] at hforked
      rw [drifted_jobs] at hrunning
      exact ⟨hlength, hforked, hrunning⟩
  | pipe _ ih => exact ⟨ih.length, ih.forked, ih.running⟩
  | @launch a commands jobs pids s t hclass hregister _ ih =>
      obtain ⟨-, rfl⟩ := JobTable.register_eq_some_iff.1 hregister
      refine ⟨by simp [ih.length], ?_, ?_⟩
      · have hone : forkedPids (s.forked a).journal = forkedPids s.journal ++ [s.choosePid] :=
          forkedPids_append _ _
        have hforked : forkedPids t.journal = forkedPids (s.forked a).journal ++ pids := ih.forked
        rw [hforked, hone, List.append_assoc, List.singleton_append]
      · rw [ih.running]
        simp

/-! ### Calls that the host does not let fail -/

/-- A call is made, and before it time passes. -/
theorem enterCall_unrefused {held : Descriptors} {call : SystemCall}
    (hnot : Host.refuses call (s.drifted held).host = none) :
    Ensures (· = s) (enterCall held call) (Gives (.ok ⟨⟩) (s.drifted held)) := by
  refine Ensures.modify_bind ?_
  intro t ht
  refine Ensures.get_bind ?_
  intro u hu
  have hallowed : Host.refuses call u.host = none := by
    rw [hu, ht]
    exact hnot
  rw [hallowed, hu, ht]
  exact Ensures.ofPure fun v hv => ⟨rfl, hv⟩

theorem block_unrefused {held : Descriptors}
    (hnot : Host.refuses .sigprocmask (s.drifted held).host = none) :
    Ensures (· = s) (block held) (Gives (.ok (s.drifted held).signal.blocked)
      { s.drifted held with signal := (s.drifted held).signal.block }) := by
  refine Ensures.after (enterCall_unrefused hnot) ?_
  refine Ensures.get_bind ?_
  rintro t rfl
  refine Ensures.set_bind ?_
  rintro _ rfl
  exact Ensures.ofPure fun t ht => ⟨rfl, ht⟩

variable (hrefuses : ∀ call (host : σ), Host.refuses call host = none) (held : Descriptors)
include hrefuses

theorem enterCall_gives (call : SystemCall) (s : Supervisor σ) :
    Ensures (· = s) (enterCall held call) (Gives (.ok ⟨⟩) (s.drifted held)) :=
  enterCall_unrefused (hrefuses call _)

theorem block_gives (s : Supervisor σ) :
    Ensures (· = s) (block held) (Gives (.ok (s.drifted held).signal.blocked)
      { s.drifted held with signal := (s.drifted held).signal.block }) :=
  block_unrefused (hrefuses .sigprocmask _)

theorem fork_gives (a : Assignment) (s : Supervisor σ) :
    Ensures (· = s) (fork held a)
      (Gives (.ok (s.drifted held).choosePid) ((s.drifted held).forked a)) := by
  refine Ensures.after (enterCall_gives hrefuses held .fork s) ?_
  refine Ensures.get_bind ?_
  rintro t rfl
  refine Ensures.modify_bind ?_
  rintro _ rfl
  refine Ensures.modify_bind ?_
  rintro _ rfl
  exact Ensures.ofPure fun t ht => ⟨rfl, ht⟩

/-- **A child is forked and listed**, if every listed job is a child. -/
theorem launch_gives (hs : s.Accounted) (a : Assignment) :
    ∃ jobs, (s.drifted held).jobs.register (s.drifted held).choosePid a.jobClass = some jobs ∧
      Ensures (· = s) (do let pid ← fork held a; register pid a.jobClass)
        (Gives (.ok ⟨⟩) { (s.drifted held).forked a with jobs := jobs }) := by
  have hdrifted : (s.drifted held).Accounted := hs.drifted held
  have hregister := (JobTable.register_eq_some_iff (c := a.jobClass)).2
    ⟨classOf?_choosePid hdrifted.children, rfl⟩
  refine ⟨_, hregister, ?_⟩
  refine Ensures.after (fork_gives hrefuses held a s) ?_
  refine Ensures.get_bind ?_
  rintro t rfl
  have hjobs : ((s.drifted held).forked a).jobs = (s.drifted held).jobs := rfl
  rw [hjobs, hregister]
  exact Ensures.ofSet fun t ht => ⟨rfl, rfl⟩

end Supervisor

namespace Shell

open Supervisor (Lulls Enrolls Dispatches Enrolled Untouched forkedPids)

variable {σ : Type} [Host σ] {α : Type} {s t : Shell σ}

/-! ### Calls of the shell -/

/-- Nothing has happened to the shell but a lull and a change of its table. -/
structure Rested (s : Shell σ) (d : Descriptors) (t : Shell σ) : Prop where
  lulls : Lulls s.toSupervisor t.toSupervisor
  descriptors : t.descriptors = d
  place : t.place = s.place
  home : t.home = s.home
  exitRequested : t.exitRequested = s.exitRequested

/-- The lull goes on. -/
theorem Rested.lull {d : Descriptors} (h : Rested s d t) {v : Supervisor σ}
    (hv : Lulls t.toSupervisor v) : Rested s d { t with toSupervisor := v } :=
  ⟨h.lulls.trans hv, h.descriptors, h.place, h.home, h.exitRequested⟩

theorem passed_rested (s : Shell σ) : Rested s s.descriptors s.passed :=
  ⟨.single (.drift _ _), rfl, rfl, rfl, rfl⟩

omit [Host σ] in
theorem supervise_gives {body : Descriptors → Supervised σ α} {r : Except Stop α} {v : Supervisor σ}
    (h : Ensures (· = s.toSupervisor) (body s.descriptors) (Gives r v)) :
    Ensures (· = s) (supervise body) (Gives r { s with toSupervisor := v }) := by
  refine Ensures.supervise ?_
  rintro _ rfl
  refine h.post ?_
  rintro _ _ ⟨rfl, rfl⟩
  exact ⟨rfl, rfl⟩

omit [Host σ] in
theorem releasing_gives {fds : List Nat} {body : ShellM σ α} {a : α}
    (h : Ensures (· = s) body (Gives (.ok a) t)) :
    Ensures (· = s) (releasing fds body) (Gives (.ok a) t) := by
  refine Ensures.releasing h ?_ ?_
  · intro b u hu
    exact hu
  · rintro stop u ⟨hstop, -⟩
    cases hstop

omit [Host σ] in
theorem releasing_gives_stop {fds : List Nat} {body : ShellM σ α} {stop : Stop}
    (h : Ensures (· = s) body (Gives (.error stop) t)) :
    Ensures (· = s) (releasing fds body) (Gives (.error stop)
      { t with descriptors := fds.foldl Descriptors.close t.descriptors }) := by
  refine Ensures.releasing h ?_ ?_
  · rintro b u ⟨hb, -⟩
    cases hb
  · rintro _ _ ⟨hstop, rfl⟩
    exact ⟨hstop, rfl⟩

omit [Host σ] in
theorem releasing_surely {fds : List Nat} {body : ShellM σ α} {ok : α → Shell σ → Prop}
    (h : Ensures (· = s) body (Surely ok)) :
    Ensures (· = s) (releasing fds body) (Surely ok) := by
  refine Ensures.releasing h ?_ ?_
  · intro a u hu
    exact hu
  · intro stop u hu
    exact hu.elim

omit [Host σ] in
theorem close_gives {fd : Nat} (hopen : s.descriptors.isOpen fd = true) :
    Ensures (· = s) (close fd)
      (Gives (.ok ⟨⟩) { s with descriptors := s.descriptors.close fd }) := by
  refine Ensures.get_bind ?_
  rintro t rfl
  simp only [hopen, if_true]
  refine Ensures.ofModify ?_
  rintro _ rfl
  exact ⟨rfl, rfl⟩

section Calls

variable (hrefuses : ∀ call (host : σ), Host.refuses call host = none)
include hrefuses

/-- A call is made, and before it time passes. -/
theorem enterCall_passes (call : SystemCall) (s : Shell σ) :
    Ensures (· = s) (supervise fun held => Supervisor.enterCall held call)
      (Gives (.ok ⟨⟩) s.passed) :=
  supervise_gives (Supervisor.enterCall_gives hrefuses _ call _)

/-- Without room nothing is duplicated. -/
theorem duplicate_gives_stop {fd : Nat} {file : OpenFile}
    (hfile : s.descriptors.file? fd = some file) (hroom : s.descriptors.room = 0) :
    Ensures (· = s) (duplicate fd)
      (Gives (.error (.failed ⟨.dup, Errno.tooManyFiles⟩)) s.passed) := by
  have hallocate : s.descriptors.allocate? file 0 = none := by
    rw [Descriptors.allocate?, if_pos hroom]
  refine Ensures.after (enterCall_passes hrefuses .dup s) ?_
  refine Ensures.get_bind ?_
  rintro _ rfl
  have hsame : s.passed.descriptors = s.descriptors := rfl
  simp only [hsame, hfile, hallocate]
  exact Ensures.ofThrow fun t ht => ⟨rfl, ht⟩

/-- With room the least number is taken that was free. -/
theorem duplicate_rests {fd : Nat} {file : OpenFile}
    (hfile : s.descriptors.file? fd = some file) (hroom : s.descriptors.room ≠ 0) :
    Ensures (· = s) (duplicate fd) (Surely fun new t =>
      new = s.descriptors.leastFree 0 ∧ Rested s (s.descriptors.assign new file) t) := by
  have hallocate : s.descriptors.allocate? file 0 = some (s.descriptors.leastFree 0,
      s.descriptors.assign (s.descriptors.leastFree 0) file) :=
    Descriptors.allocate?_eq_some_iff.2 ⟨hroom, rfl, rfl⟩
  refine Ensures.after (enterCall_passes hrefuses .dup s) ?_
  refine Ensures.get_bind ?_
  rintro _ rfl
  have hsame : s.passed.descriptors = s.descriptors := rfl
  simp only [hsame, hfile, hallocate]
  refine Ensures.modify_bind ?_
  rintro _ rfl
  refine Ensures.ofPure ?_
  rintro _ rfl
  exact ⟨rfl, .single (.drift _ _), rfl, rfl, rfl, rfl⟩

/-- The signal is blocked. -/
theorem block_rests {d : Descriptors} {fds : List Nat} (ht : Rested s d t) :
    Ensures (· = t) (releasing fds (supervise fun held => Supervisor.block held))
      (Surely fun _ u => Rested s d u) := by
  refine releasing_surely ?_
  refine (supervise_gives (Supervisor.block_gives hrefuses _ _)).post ?_
  rintro _ _ ⟨rfl, rfl⟩
  refine ht.lull (Relation.ReflTransGen.tail ?_ (.signal _ _))
  exact .single (.drift _ _)

/-- Without room for two no pipe is made. -/
theorem makePipe_gives_stop (hroom : s.descriptors.room < 2) :
    Ensures (· = s) makePipe
      (Gives (.error (.failed ⟨.pipe, Errno.tooManyFiles⟩)) s.passed) := by
  refine Ensures.after (enterCall_passes hrefuses .pipe s) ?_
  refine Ensures.get_bind ?_
  rintro _ rfl
  have hfull : s.passed.descriptors.room < 2 := hroom
  rw [if_pos hfull]
  exact Ensures.throw_bind fun t ht => ⟨rfl, ht⟩

/-- With room for two the least numbers are taken that were free. -/
theorem makePipe_gives (hroom : 2 ≤ s.descriptors.room) {pipe reader writer : Nat}
    {ends : Descriptors} (hpipe : pipe = (Host.newPipe s.passed.host).1)
    (hreader : reader = s.descriptors.leastFree 0)
    (hends : ends = s.descriptors.assign reader (.pipeReader pipe))
    (hwriter : writer = ends.leastFree 0) :
    Ensures (· = s) makePipe (Gives (.ok (reader, writer))
      { s.passed with
        host := (Host.newPipe s.passed.host).2
        descriptors := ends.assign writer (.pipeWriter pipe) }) := by
  subst hpipe hreader hends hwriter
  refine Ensures.after (enterCall_passes hrefuses .pipe s) ?_
  refine Ensures.get_bind ?_
  rintro _ rfl
  have hspare : ¬ s.passed.descriptors.room < 2 := Nat.not_lt.2 hroom
  rw [if_neg hspare]
  refine Ensures.set_bind ?_
  rintro _ rfl
  exact Ensures.ofPure fun t ht => ⟨rfl, ht⟩

/-- **A command is launched**, in the place that the shell's table gives it. -/
theorem launch_dispatches (hs : s.toSupervisor.Accounted) (command : Command) (input : Nat)
    (pipe : Option (Nat × Nat)) (jobClass : JobClass) :
    Ensures (· = s) (launch command input pipe jobClass) (Surely fun _ t =>
      t.descriptors = s.descriptors ∧ t.place = s.place ∧ t.toSupervisor.Accounted ∧
        ∀ {as pipes pids u}, Dispatches as pipes pids t.toSupervisor u →
          ∃ pid, Dispatches (Seat.assign ⟨input, pipe, s.descriptors⟩ jobClass s.place command :: as)
            pipes (pid :: pids) s.toSupervisor u) := by
  refine Ensures.get_bind ?_
  rintro s rfl
  obtain ⟨jobs, hregister, hlaunch⟩ := Supervisor.launch_gives hrefuses s.descriptors hs
    (Seat.assign ⟨input, pipe, s.descriptors⟩ jobClass s.place command)
  refine (supervise_gives hlaunch).post ?_
  rintro _ _ ⟨rfl, rfl⟩
  have hmoves : Supervisor.Moves (fun _ => True) (s.toSupervisor.drifted s.descriptors)
      { (s.toSupervisor.drifted s.descriptors).forked
          (Seat.assign ⟨input, pipe, s.descriptors⟩ jobClass s.place command) with jobs := jobs } :=
    .launch trivial hregister
  refine ⟨rfl, rfl, hmoves.accounted (hs.drifted _), ?_⟩
  intro as pipes pids u hrest
  exact ⟨_, .drift s.descriptors (.launch hregister hrest)⟩

/-- **With room for three all commands are launched**, however many there are, each in its place.
Before each command the table is the one of before the first, but for the number from which the
command reads. -/
theorem spawnStages_dispatches {base : Descriptors} {commands : List Command} {jobClass : JobClass}
    (hroom : commands.length ≤ 1 ∨ 3 ≤ base.room) {input : Nat} {file : OpenFile}
    (hs : s.toSupervisor.Accounted) (hfree : base.isOpen input = false)
    (hdescriptors : s.descriptors = base.assign input file) :
    Ensures (· = s) (spawnStages jobClass input commands) (Surely fun _ t =>
      ∃ pipes pids, pipes.length = commands.length - 1 ∧
        Dispatches (Seat.assignAll jobClass s.place commands (base.seats input file pipes)) pipes
          pids s.toSupervisor t.toSupervisor) := by
  induction commands generalizing s input file with
  | nil =>
      have hinput : s.descriptors.isOpen input = true := by
        rw [hdescriptors, Descriptors.isOpen_assign_self]
      refine (close_gives hinput).post ?_
      rintro _ _ ⟨rfl, rfl⟩
      exact ⟨[], [], rfl, .nil _⟩
  | cons command rest ih =>
      cases rest with
      | nil =>
          -- the last command takes no further descriptor
          refine Ensures.bind_surely
            (releasing_surely (launch_dispatches hrefuses hs command input none jobClass)) ?_
          rintro _ t ⟨ht, -, -, hlaunched⟩
          have hinput : t.descriptors.isOpen input = true := by
            rw [ht, hdescriptors, Descriptors.isOpen_assign_self]
          refine (close_gives hinput).post ?_
          rintro _ _ ⟨rfl, rfl⟩
          obtain ⟨pid, hdispatches⟩ := hlaunched (.nil _)
          rw [hdescriptors] at hdispatches
          exact ⟨[], [pid], rfl, hdispatches⟩
      | cons next rest =>
          have hroom' : 3 ≤ base.room := by simpa using hroom
          have hpipe : 2 ≤ s.descriptors.room := by
            rw [hdescriptors, Descriptors.room_assign_of_free hfree]
            omega
          obtain ⟨pipe, hnew⟩ : ∃ pipe, pipe = (Host.newPipe s.passed.host).1 := ⟨_, rfl⟩
          obtain ⟨reader, hreader⟩ : ∃ reader, reader = s.descriptors.leastFree 0 := ⟨_, rfl⟩
          obtain ⟨ends, hends⟩ : ∃ ends, ends = s.descriptors.assign reader (.pipeReader pipe) :=
            ⟨_, rfl⟩
          obtain ⟨writer, hwriter⟩ : ∃ writer, writer = ends.leastFree 0 := ⟨_, rfl⟩
          have hconnected :=
            Descriptors.connected_leastFree hfree hdescriptors hreader hends hwriter
          refine Ensures.after
            (releasing_gives (makePipe_gives hrefuses hpipe hnew hreader hends hwriter)) ?_
          have ht_accounted : Supervisor.Accounted
              { s.passed.toSupervisor with host := (Host.newPipe s.passed.host).2 } :=
            (hs.drifted s.descriptors).setHost _
          refine Ensures.bind_surely (releasing_surely
            (launch_dispatches hrefuses ht_accounted command input _ jobClass)) ?_
          rintro _ u ⟨hu, hu_place, hu_accounted, hlaunched⟩
          replace hu : u.descriptors = ends.assign writer (.pipeWriter pipe) := hu
          rw [← hu] at hconnected
          refine Ensures.after (close_gives hconnected.isOpen_input) ?_
          refine Ensures.after (close_gives hconnected.isOpen_writer) ?_
          -- the room of the pipe has been given back, but for the end that the next command reads
          have hrest := @ih { u with descriptors := (u.descriptors.close input).close writer }
            (.inr hroom') reader (.pipeReader pipe) hu_accounted hconnected.reader_base.2
            hconnected.close_writer
          refine hrest.post ?_
          rintro (stop | _) v hv
          · exact hv.elim
          · obtain ⟨pipes, pids, hlength, hdispatches⟩ := hv
            obtain ⟨pid, hfirst⟩ := hlaunched hdispatches
            refine ⟨pipe :: pipes, pid :: pids, congrArg (· + 1) hlength, ?_⟩
            subst hnew hreader hends hwriter
            rw [Descriptors.seats, ← hdescriptors]
            have hplace : u.place = s.place := hu_place
            rw [hplace] at hfirst
            exact .drift s.descriptors (.pipe hfirst)

end Calls

/-! ### Running a pipeline -/

variable {p : Pipeline} {file : OpenFile}

/-- Children are reaped.  If that fails nothing has been launched either. -/
theorem reapIfNotified_rests {d : Descriptors} {fds : List Nat} (hs : s.toSupervisor.Accounted)
    (ht : Rested s d t) :
    Ensures (· = t) (releasing fds (supervise fun held => Supervisor.reapIfNotified held))
      (OkOr (fun _ u => Rested s d u)
        fun _ u => ¬ Named u.journal ∧ forkedPids u.journal = forkedPids s.journal) := by
  refine Ensures.releasing (Ensures.supervise ?_) (fun _ _ h => h) fun _ _ h => h
  rintro t rfl
  have hforked : Ensures (· = t.toSupervisor) (Supervisor.reapIfNotified t.descriptors)
      (Supervisor.Comes (fun _ => False) t.toSupervisor) :=
    Supervisor.ensures_of_reaches (Supervisor.reapIfNotified_comes t.descriptors)
  refine ((Supervisor.reapIfNotified_lulls (ht.lulls.accounted hs) _).and hforked).post ?_
  rintro (stop | _) v ⟨hv, hcomes⟩
  · exact ⟨hv, hcomes.forkedPids.trans ht.lulls.untouched.forked⟩
  · exact ht.lull hv

section Pipelines

variable (hrefuses : ∀ call (host : σ), Host.refuses call host = none)
include hrefuses

/-- **Before the first command** the standard input is duplicated, the signal is blocked, and
children are reaped.  What comes then starts after a lull, with one more descriptor than before. -/
theorem runForked_prepared {Q : Except Stop Unit → Shell σ → Prop} (hs : s.toSupervisor.Accounted)
    (hfile : s.descriptors.file? 0 = some file) (hroom : s.descriptors.room ≠ 0)
    (hunnamed : ∀ r t, ¬ Named t.journal → forkedPids t.journal = forkedPids s.journal → Q r t)
    (hrest : ∀ previous t, Rested s (s.descriptors.assign (s.descriptors.leastFree 0) file) t →
      Ensures (· = t)
        (do
          spawnStages p.jobClass (s.descriptors.leastFree 0) p.commands
          if p.background = false then supervise fun held => Supervisor.waitForeground held)
        fun r u => Q r { u with signal := u.signal.restore previous }) :
    Ensures (· = s) (runForked p) Q := by
  refine Ensures.bind_surely (duplicate_rests hrefuses hfile hroom) ?_
  rintro _ t ⟨rfl, ht⟩
  refine Ensures.bind_surely (block_rests hrefuses ht) ?_
  intro previous u hu
  refine Ensures.restoring (Ensures.bind _ (reapIfNotified_rests hs hu) ?_ ?_)
  · intro _
    refine Ensures.of_eq ?_
    intro v hv
    exact hrest previous v hv
  · rintro stop v ⟨hnot, hforked⟩
    exact hunnamed _ _ hnot hforked

/-- Without room for one there is no duplicate, and nothing is launched. -/
theorem runForked_without_duplicate (hfile : s.descriptors.file? 0 = some file)
    (hroom : s.descriptors.room = 0) :
    Ensures (· = s) (runForked p) fun r t =>
      r = .error (.failed ⟨.dup, Errno.tooManyFiles⟩) ∧ Rested s s.descriptors t :=
  Ensures.stopped (duplicate_gives_stop hrefuses hfile hroom) ⟨rfl, passed_rested s⟩

/-- Without room for three there is no pipe, and nothing is launched. -/
theorem runForked_without_pipe (hs : s.toSupervisor.Accounted)
    (hfile : s.descriptors.file? 0 = some file) (hroom : s.descriptors.room ≠ 0)
    (hroom' : s.descriptors.room < 3) (hcommands : 2 ≤ p.commands.length) :
    Ensures (· = s) (runForked p) fun r t =>
      ¬ Named t.journal ∧ forkedPids t.journal = forkedPids s.journal ∨
        r = .error (.failed ⟨.pipe, Errno.tooManyFiles⟩) ∧ Rested s s.descriptors t := by
  refine runForked_prepared hrefuses hs hfile hroom (fun r t hnot hforked => .inl ⟨hnot, hforked⟩) ?_
  intro previous t ht
  have hfree := Descriptors.leastFree_free s.descriptors 0
  obtain ⟨command, next, rest, hpipeline⟩ : ∃ command next rest,
      p.commands = command :: next :: rest := by
    match p.commands, hcommands with
    | command :: next :: rest, _ => exact ⟨command, next, rest, rfl⟩
  rw [hpipeline]
  have hfull : t.descriptors.room < 2 := by
    rw [ht.descriptors, Descriptors.room_assign_of_free hfree]
    omega
  refine Ensures.stopped (Ensures.stopped
    (releasing_gives_stop (makePipe_gives_stop hrefuses hfull)) ⟨rfl, rfl⟩) ?_
  refine .inr ⟨rfl, ?_⟩
  have hclosed : t.descriptors.close (s.descriptors.leastFree 0) = s.descriptors := by
    rw [ht.descriptors, Descriptors.close_assign hfree]
  refine ⟨?_, hclosed, ht.place, ht.home, ht.exitRequested⟩
  exact (ht.lulls.tail (.drift _ _)).tail (.signal _ _)

/-- With room for three every command is launched, and one command alone with room for one, each in
its place, unless a death cannot be decoded before that. -/
theorem runForked_launches (hs : s.toSupervisor.Accounted)
    (hfile : s.descriptors.file? 0 = some file) (hroom : s.descriptors.room ≠ 0)
    (hroom' : p.commands.length ≤ 1 ∨ 3 ≤ s.descriptors.room) :
    Ensures (· = s) (runForked p) fun r t =>
      ¬ Named t.journal ∧ forkedPids t.journal = forkedPids s.journal ∨
      ∃ v pipes pids u, Lulls s.toSupervisor v ∧ pipes.length = p.commands.length - 1 ∧
        Dispatches (p.seated s.descriptors s.place file pipes) pipes pids v u ∧
        Supervisor.Comes (fun _ => False) u r t.toSupervisor := by
  refine runForked_prepared hrefuses hs hfile hroom (fun r t hnot hforked => .inl ⟨hnot, hforked⟩) ?_
  intro previous t ht
  refine Ensures.bind_surely (spawnStages_dispatches hrefuses hroom' (ht.lulls.accounted hs)
    (Descriptors.leastFree_free _ 0) ht.descriptors) ?_
  rintro _ u ⟨pipes, pids, hlength, hdispatches⟩
  rw [ht.place] at hdispatches
  have hwait : Ensures (· = u)
      (if p.background = false then supervise fun held => Supervisor.waitForeground held
        else pure ()) fun r v => Supervisor.Comes (fun _ => False) u.toSupervisor r v.toSupervisor := by
    split
    · exact waitForeground_becomes.post fun r v hv => hv.comes
    · refine Ensures.ofPure ?_
      rintro _ rfl
      exact .refl
  refine hwait.post ?_
  intro r v hv
  exact .inr ⟨t.toSupervisor, pipes, pids, u.toSupervisor, ht.lulls, hlength, hdispatches,
    hv.tail (.signal _ _)⟩

/-- **With room for three every command is launched**, and one command alone with room for one, each
in its place. -/
theorem runForked_dispatches (hs : s.toSupervisor.Accounted)
    (hfile : s.descriptors.file? 0 = some file) (hroom : s.descriptors.room ≠ 0)
    (hroom' : p.commands.length ≤ 1 ∨ 3 ≤ s.descriptors.room) :
    Ensures (· = s) (runForked p) fun r t => Named t.journal →
      ∃ v pipes pids u, Lulls s.toSupervisor v ∧ pipes.length = p.commands.length - 1 ∧
        Dispatches (p.seated s.descriptors s.place file pipes) pipes pids v u ∧
        Supervisor.Comes (fun _ => False) u r t.toSupervisor :=
  (runForked_launches hrefuses hs hfile hroom hroom').post fun _ _ hlaunches hnamed =>
    hlaunches.resolve_left fun hnot => hnot.1 hnamed

/-- **Every command is launched or none**, however many descriptors there are and whatever deaths
there have been. -/
theorem runForked_all_or_none (hs : s.toSupervisor.Accounted)
    (hfile : s.descriptors.file? 0 = some file) :
    Ensures (· = s) (runForked p) fun r t =>
      forkedPids t.journal = forkedPids s.journal ∨
      ∃ v pipes pids u, Lulls s.toSupervisor v ∧ pipes.length = p.commands.length - 1 ∧
        Dispatches (p.seated s.descriptors s.place file pipes) pipes pids v u ∧
        Supervisor.Comes (fun _ => False) u r t.toSupervisor := by
  by_cases hroom : s.descriptors.room = 0
  · refine (runForked_without_duplicate hrefuses hfile hroom).post ?_
    rintro r t ⟨-, hrested⟩
    exact .inl hrested.lulls.untouched.forked
  by_cases hroom' : p.commands.length ≤ 1 ∨ 3 ≤ s.descriptors.room
  · refine (runForked_launches hrefuses hs hfile hroom hroom').post ?_
    rintro r t (⟨-, hforked⟩ | hlaunched)
    · exact .inl hforked
    · exact .inr hlaunched
  · refine (runForked_without_pipe hrefuses hs hfile hroom (by omega) (by omega)).post ?_
    rintro r t (⟨-, hforked⟩ | ⟨-, hrested⟩)
    · exact .inl hforked
    · exact .inl hrested.lulls.untouched.forked

omit hrefuses in
/-- The places of the commands have no part in who is launched. -/
theorem enrolls_of_dispatches {pipes : List Nat} {pids : List Int} {v u : Supervisor σ}
    (hlength : pipes.length = p.commands.length - 1)
    (h : Dispatches (p.seated s.descriptors s.place file pipes) pipes pids v u) :
    Enrolls p.jobClass p.commands pids v u := by
  have henrolls := h.enrolls Seat.jobClass_assignAll
  rw [Pipeline.seated, Seat.command_assignAll] at henrolls
  · exact henrolls
  · rw [Descriptors.length_seats]
    omega

/-- The same without the places. -/
theorem runForked_enrolls (hs : s.toSupervisor.Accounted)
    (hfile : s.descriptors.file? 0 = some file) (hroom : s.descriptors.room ≠ 0)
    (hroom' : p.commands.length ≤ 1 ∨ 3 ≤ s.descriptors.room) :
    Ensures (· = s) (runForked p) fun r t => Named t.journal →
      ∃ v pids u, Lulls s.toSupervisor v ∧ Enrolls p.jobClass p.commands pids v u ∧
        Supervisor.Comes (fun _ => False) u r t.toSupervisor := by
  refine (runForked_dispatches hrefuses hs hfile hroom hroom').post ?_
  intro r t h hnamed
  obtain ⟨v, pipes, pids, u, hv, hlength, hdispatches, hcomes⟩ := h hnamed
  exact ⟨v, pids, u, hv, enrolls_of_dispatches hlength hdispatches, hcomes⟩

end Pipelines

/-- **A pipeline is launched as a whole or not at all.**  Let every listed job be a child, let the
standard input be open, and let the host let no call fail.  A pipeline that is not a builtin alone is
run, and all deaths are exits or come by signals with names.

* With room for one descriptor a pipeline of one command is launched, and with room for three any
  longer one: after a lull a child is forked and listed for one command after another, and nothing
  more is launched until the shell is done with the pipeline.
* Without room for one the shell fails to duplicate its input, and with room for one or two it fails
  to make the first pipe of a longer pipeline.  Then no child has been forked, no job has been listed,
  the host has been left to itself, and the table is as before. -/
theorem runPipeline_whole (hp : p.builtin? = none) (hcommands : p.commands ≠ [])
    (hs : s.toSupervisor.Accounted) (hstdin : s.descriptors.isOpen 0 = true)
    (hrefuses : ∀ call (host : σ), Host.refuses call host = none)
    (hnamed : Named ((runPipeline p).run s).2.journal) :
    let after := (runPipeline p).run s
    (p.commands.length = 1 ∧ 1 ≤ s.descriptors.room ∨
        2 ≤ p.commands.length ∧ 3 ≤ s.descriptors.room →
      ∃ v pids u, Lulls s.toSupervisor v ∧ Enrolls p.jobClass p.commands pids v u ∧
        Enrolled p.jobClass p.commands pids v u ∧
        Supervisor.Comes (fun _ => False) u after.1 after.2.toSupervisor ∧
        forkedPids after.2.journal = forkedPids s.journal ++ pids) ∧
    (¬ (p.commands.length = 1 ∧ 1 ≤ s.descriptors.room ∨
        2 ≤ p.commands.length ∧ 3 ≤ s.descriptors.room) →
      after.1 = .error (.failed ⟨if s.descriptors.room = 0 then .dup else .pipe,
        Errno.tooManyFiles⟩) ∧
        Rested s s.descriptors after.2 ∧ Untouched s.toSupervisor after.2.toSupervisor) := by
  intro after
  have hrun : after = (runForked p).run s := by
    change (runPipeline p).run s = _
    unfold runPipeline
    rw [hp]
  have hpositive : 1 ≤ p.commands.length := List.length_pos_iff.2 hcommands
  obtain ⟨file, hfile⟩ := Option.isSome_iff_exists.1 hstdin
  have hnamed' : Named after.2.journal := hnamed
  rw [hrun] at hnamed' ⊢
  constructor
  · intro hroom
    obtain ⟨v, pids, u, hv, henrolls, hafter⟩ := runForked_enrolls hrefuses hs hfile (by omega)
      (by omega) s rfl hnamed'
    refine ⟨v, pids, u, hv, henrolls, henrolls.enrolled, hafter, ?_⟩
    rw [hafter.forkedPids, henrolls.enrolled.forked, hv.untouched.forked]
  · intro hroom
    by_cases hnone : s.descriptors.room = 0
    · rw [if_pos hnone]
      obtain ⟨hresult, hrested⟩ := runForked_without_duplicate (p := p) hrefuses hfile hnone s rfl
      exact ⟨hresult, hrested, hrested.lulls.untouched⟩
    · rw [if_neg hnone]
      obtain ⟨hresult, hrested⟩ := runForked_without_pipe hrefuses hs hfile hnone (by omega)
        (by omega) s rfl |>.resolve_left fun hnot => hnot.1 hnamed'
      exact ⟨hresult, hrested, hrested.lulls.untouched⟩

/-- What the shell says of the two failures. -/
example : (ResourceError.mk .dup Errno.tooManyFiles).message =
    "dup() failed: EMFILE: Too many open files" ∧
    (ResourceError.mk .pipe Errno.tooManyFiles).message =
      "pipe() failed: EMFILE: Too many open files" := by decide

/-- A shell with three open descriptors and room for some more. -/
def cramped (room : Nat) : Shell Fated :=
  { Fated.shell (.exited 3) with
    descriptors := { entries := (Fated.shell (.exited 3)).descriptors.entries, capacity := 3 + room } }

/-- Four commands. -/
def chain : Pipeline :=
  ⟨[⟨utf8 "a", [], []⟩, ⟨utf8 "b", [], []⟩, ⟨utf8 "c", [], []⟩, ⟨utf8 "d", [], []⟩], false⟩

/-- Four commands with room for three descriptors, and with room for two. -/
theorem runPipeline_whole_four :
    (∃ pids : List Int, pids.length = 4 ∧
      forkedPids ((runPipeline chain).run (cramped 3)).2.journal = pids) ∧
    ((runPipeline chain).run (cramped 2)).1 = .error (.failed ⟨.pipe, Errno.tooManyFiles⟩) ∧
      forkedPids ((runPipeline chain).run (cramped 2)).2.journal = [] := by
  have haccounted : ∀ room, (cramped room).toSupervisor.Accounted :=
    fun room => Supervisor.accounted_initial _
  have hspare := runPipeline_whole (p := chain) (s := cramped 3) rfl (by simp [chain]) (haccounted 3)
    rfl (fun _ _ => rfl) (by decide +kernel)
  have hshort := runPipeline_whole (p := chain) (s := cramped 2) rfl (by simp [chain]) (haccounted 2)
    rfl (fun _ _ => rfl) (by decide +kernel)
  obtain ⟨v, pids, u, -, -, henrolled, -, hforked⟩ := hspare.1 (.inr ⟨by decide, by decide⟩)
  obtain ⟨hresult, -, huntouched⟩ := hshort.2 (by decide)
  exact ⟨⟨pids, henrolled.length, hforked⟩, hresult, huntouched.forked⟩

end Shell

end JobShell
