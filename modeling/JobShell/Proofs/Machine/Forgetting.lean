/-
**The record makes no difference to the shell.**

Whatever the shell does on a watched machine, it does the same on the machine alone: it comes to the
same result, or stops for the same reason, and all that it has is the same afterwards.  So what is
read in the record of a run is what has happened in the run that keeps none.

Main definitions:

* `JobShell.Forgets` — a computation that does the same without a part of its state;
* `JobShell.Shell.bare`, `JobShell.Shell.watched` — a shell without the record, and with a new one;
* `JobShell.Shell.moments` — what happens on the machine while lines are run.

Main results:

* `JobShell.Forgets.bind`, `JobShell.Forgets.get_bind`, `JobShell.Forgets.ite` and the like — the
  ways in which computations are put together;
* `JobShell.Supervisor.reapAll_forgets`, `JobShell.Supervisor.waitRounds_forgets` and the like — the
  operations of the supervisor;
* `JobShell.Shell.runLine_forgets`, `JobShell.Shell.runLines_forgets` — **lines do the same without
  the record.**
-/

import JobShell.Proofs.Containment
import JobShell.Proofs.Machine.Watching

set_option autoImplicit false

namespace JobShell

/-- A computation on the larger states does what the other does on the smaller ones, to which the
part is taken away from them. -/
def Forgets {s s' α : Type} (forget : s → s') (x : ExceptT Stop (StateM s) α)
    (y : ExceptT Stop (StateM s') α) : Prop :=
  ∀ st, y.run (forget st) = ((x.run st).1, forget (x.run st).2)

namespace Forgets

variable {s s' α β : Type} {forget : s → s'}

theorem ofPure (a : α) :
    Forgets forget (pure a : ExceptT Stop (StateM s) α) (pure a : ExceptT Stop (StateM s') α) :=
  fun _ => rfl

theorem ofThrow (stop : Stop) : Forgets forget (throw stop : ExceptT Stop (StateM s) α)
    (throw stop : ExceptT Stop (StateM s') α) := fun _ => rfl

theorem ofSet {st : s} {st' : s'} (h : st' = forget st) :
    Forgets forget (set st : ExceptT Stop (StateM s) PUnit)
      (set st' : ExceptT Stop (StateM s') PUnit) := by
  subst h
  exact fun _ => rfl

theorem ofModify {c : s → s} {d : s' → s'} (h : ∀ st, d (forget st) = forget (c st)) :
    Forgets forget (modify c : ExceptT Stop (StateM s) PUnit)
      (modify d : ExceptT Stop (StateM s') PUnit) :=
  fun st => congrArg (Prod.mk (Except.ok PUnit.unit)) (h st)

/-- One computation after another. -/
theorem bind {x : ExceptT Stop (StateM s) β} {y : ExceptT Stop (StateM s') β}
    {f : β → ExceptT Stop (StateM s) α} {g : β → ExceptT Stop (StateM s') α}
    (hx : Forgets forget x y) (hf : ∀ b, Forgets forget (f b) (g b)) :
    Forgets forget (x >>= f) (y >>= g) := by
  intro st
  rw [run_bind, run_bind, hx st]
  rcases x.run st with ⟨_ | b, st'⟩
  · rfl
  · exact hf b st'

/-- Reading the state and going on with it. -/
theorem get_bind {f : s → ExceptT Stop (StateM s) α} {g : s' → ExceptT Stop (StateM s') α}
    (h : ∀ st, Forgets forget (f st) (g (forget st))) :
    Forgets forget (get >>= f) (get >>= g) := by
  intro st
  rw [run_get_bind, run_get_bind]
  exact h st st

/-- The same branch. -/
theorem ite {c : Prop} [Decidable c] {x x' : ExceptT Stop (StateM s) α}
    {y y' : ExceptT Stop (StateM s') α} (hthen : Forgets forget x y)
    (helse : Forgets forget x' y') :
    Forgets forget (if c then x else x') (if c then y else y') := by
  split
  · exact hthen
  · exact helse

end Forgets

/-! ### The supervisor -/

namespace Supervisor

variable {held : Descriptors}

theorem bare_host (s : Supervisor Watched) : s.bare.host = s.host.machine := rfl

theorem bare_children (s : Supervisor Watched) : s.bare.children = s.children := rfl

theorem bare_jobs (s : Supervisor Watched) : s.bare.jobs = s.jobs := rfl

theorem note_forgets (e : Event) : Forgets bare (note e) (note e) := .ofModify fun _ => rfl

theorem book_forgets (status : WaitStatus) : Forgets bare (book status) (book status) :=
  .ofModify fun _ => rfl

theorem register_forgets (pid : Int) (jobClass : JobClass) :
    Forgets bare (register pid jobClass) (register pid jobClass) := by
  refine .get_bind fun s => ?_
  rw [bare_jobs]
  cases s.jobs.register pid jobClass with
  | none => exact .ofThrow _
  | some jobs => exact .ofSet rfl

theorem takeNotice_forgets : Forgets bare takeNotice takeNotice :=
  .get_bind fun _ => .bind (.ofSet rfl) fun _ => .ofPure _

theorem drift_forgets : Forgets bare (drift held) (drift held) :=
  .ofModify fun s => (bare_drifted held s).symm

theorem enterCall_forgets (call : SystemCall) :
    Forgets bare (enterCall held call) (enterCall held call) := by
  refine .bind drift_forgets fun _ => .get_bind fun s => ?_
  have hrefuses : Host.refuses call s.bare.host = Host.refuses call s.host := rfl
  rw [hrefuses]
  cases Host.refuses call s.host with
  | none => exact .ofPure _
  | some errno => exact .ofThrow _

theorem block_forgets : Forgets bare (block held) (block held) :=
  .bind (enterCall_forgets _) fun _ => .get_bind fun _ => .bind (.ofSet rfl) fun _ => .ofPure _

theorem fork_forgets (a : Assignment) : Forgets bare (fork held a) (fork held a) := by
  refine .bind (enterCall_forgets _) fun _ => .get_bind fun s => ?_
  exact .bind (.ofModify fun _ => rfl) fun _ => .bind (note_forgets _) fun _ => .ofPure _

/-- Reaping asks nothing of the host. -/
theorem reapDead_forgets : Forgets bare reapDead reapDead := by
  refine .get_bind fun s => ?_
  rw [bare_children]
  cases unlinkDead s.children with
  | none => exact .ofPure _
  | some found =>
      obtain ⟨⟨pid, ending⟩, rest⟩ := found
      refine .bind (.ofSet rfl) fun _ => ?_
      cases ending.decode pid with
      | ok status => exact .bind (note_forgets _) fun _ => .ofPure _
      | error errno => exact .bind (note_forgets _) fun _ => .ofThrow _

theorem reapOne_forgets : Forgets bare (reapOne held) (reapOne held) :=
  .bind drift_forgets fun _ => reapDead_forgets

/-- Whether a child ends or not, it is the same without the record. -/
theorem await_machine (w : Watched) : Host.await held w.machine =
    match w.await held with
    | .ok (death, w') => .ok (death, w'.machine)
    | .error (loss, w') => .error (loss, w'.machine) := by
  have hhost : Host.await held w.machine = w.machine.runUntilDeath held Machine.patience := rfl
  rw [hhost, Watched.await]
  rcases w.machine.runUntilDeath held Machine.patience with ⟨_, _⟩ | ⟨_, _⟩ <;> rfl

theorem sleepUntilDeath_forgets :
    Forgets bare (sleepUntilDeath held) (sleepUntilDeath held) := by
  refine .get_bind fun s => ?_
  refine Forgets.ite (c := s.hasDead = true) (.ofPure _) ?_
  have hawait : Host.await held s.host = s.host.await held := rfl
  rw [bare_host, await_machine, hawait]
  rcases s.host.await held with ⟨loss, host⟩ | ⟨death, host⟩
  · exact .bind (.ofSet rfl) fun _ => .ofThrow _
  · exact .ofSet (bare_bury death { s with host := host }).symm

theorem waitOne_forgets : Forgets bare (waitOne held) (waitOne held) := by
  refine .bind drift_forgets fun _ => .bind (note_forgets _) fun _ => .get_bind fun s => ?_
  refine Forgets.ite (c := s.children.isEmpty = true) (.bind (.ofThrow _) fun _ => ?_) ?_
  all_goals
    refine .bind sleepUntilDeath_forgets fun _ => .bind reapDead_forgets fun status => ?_
    cases status with
    | none => exact .ofThrow _
    | some status => exact .ofPure _

theorem reapAll_forgets (n : Nat) : Forgets bare (reapAll held n) (reapAll held n) := by
  induction n with
  | zero => exact .ofPure _
  | succ n ih =>
      refine .bind reapOne_forgets fun status => ?_
      cases status with
      | none => exact .ofPure _
      | some status => exact .bind (book_forgets status) fun _ => ih

theorem reapTerminated_forgets : Forgets bare (reapTerminated held) (reapTerminated held) :=
  .bind takeNotice_forgets fun _ => .get_bind fun s => reapAll_forgets s.children.length

theorem reapIfNotified_forgets : Forgets bare (reapIfNotified held) (reapIfNotified held) :=
  .bind takeNotice_forgets fun _ => .ite reapTerminated_forgets (.ofPure _)

theorem waitRounds_forgets (n : Nat) : Forgets bare (waitRounds held n) (waitRounds held n) := by
  induction n with
  | zero =>
      refine .get_bind fun s => ?_
      exact Forgets.ite (c := s.jobs.hasForeground = true)
        (.bind waitOne_forgets fun _ => .ofPure _) (.ofPure _)
  | succ n ih =>
      refine .get_bind fun s => ?_
      exact Forgets.ite (c := s.jobs.hasForeground = true)
        (.bind waitOne_forgets fun status => .bind (book_forgets status) fun _ => ih) (.ofPure _)

theorem waitForeground_forgets : Forgets bare (waitForeground held) (waitForeground held) :=
  .get_bind fun s => waitRounds_forgets s.children.length

end Supervisor

/-! ### The shell -/

namespace Shell

open Supervisor (enterCall_forgets block_forgets reapIfNotified_forgets fork_forgets
  register_forgets waitForeground_forgets note_forgets kill_goes)

variable {α : Type}

/-- The shell without the record. -/
def bare (s : Shell Watched) : Shell Machine :=
  { toSupervisor := s.toSupervisor.bare
    descriptors := s.descriptors
    place := s.place
    home := s.home
    exitRequested := s.exitRequested }

/-- The shell with a new record. -/
def watched (s : Shell Machine) : Shell Watched :=
  { host := { machine := s.host }
    children := s.children
    signal := s.signal
    jobs := s.jobs
    journal := s.journal
    descriptors := s.descriptors
    place := s.place
    home := s.home
    exitRequested := s.exitRequested }

theorem bare_host (s : Shell Watched) : s.bare.host = s.host.machine := rfl

theorem bare_descriptors (s : Shell Watched) : s.bare.descriptors = s.descriptors := rfl

theorem bare_place (s : Shell Watched) : s.bare.place = s.place := rfl

theorem bare_watched (s : Shell Machine) : s.watched.bare = s := rfl

/-- **What happens on the machine** while lines are run. -/
def moments (s : Shell Machine) (texts : List Bytes) : List Moment :=
  ((runLines texts).run s.watched).2.host.moments

theorem supervise_forgets {x : Descriptors → Supervised Watched α}
    {y : Descriptors → Supervised Machine α} (h : ∀ held, Forgets Supervisor.bare (x held) (y held)) :
    Forgets bare (supervise x) (supervise y) := by
  intro s
  have hrun : (y s.descriptors).run s.bare.toSupervisor = _ := h s.descriptors s.toSupervisor
  change (match (y s.descriptors).run s.bare.toSupervisor with
    | (result, supervisor) => (result, { s.bare with toSupervisor := supervisor })) = _
  rw [hrun]
  rfl

theorem releasing_forgets {x : ShellM Watched α} {y : ShellM Machine α} (fds : List Nat)
    (h : Forgets bare x y) : Forgets bare (releasing fds x) (releasing fds y) := by
  intro s
  unfold releasing
  rw [ExceptT.run_mk, ExceptT.run_mk, h s]
  rcases x.run s with ⟨_ | a, t⟩ <;> rfl

theorem restoring_forgets {x : ShellM Watched α} {y : ShellM Machine α} (previous : Bool)
    (h : Forgets bare x y) : Forgets bare (restoring previous x) (restoring previous y) := by
  intro s
  unfold restoring
  rw [ExceptT.run_mk, ExceptT.run_mk, h s]
  rfl

theorem say_forgets (fd : Nat) (text : Bytes) : Forgets bare (say fd text) (say fd text) := by
  refine .ofModify fun s => ?_
  rw [bare_descriptors]
  cases s.descriptors.file? fd <;> rfl

theorem duplicate_forgets (fd : Nat) : Forgets bare (duplicate fd) (duplicate fd) := by
  refine .bind (supervise_forgets fun _ => enterCall_forgets _) fun _ => .get_bind fun s => ?_
  rw [bare_descriptors]
  dsimp only
  cases s.descriptors.file? fd with
  | none => exact .ofThrow _
  | some file =>
      dsimp only
      cases s.descriptors.allocate? file 0 with
      | none => exact .ofThrow _
      | some allocated => exact .bind (.ofModify fun _ => rfl) fun _ => .ofPure _

theorem makePipe_forgets : Forgets bare makePipe makePipe := by
  refine .bind (supervise_forgets fun _ => enterCall_forgets _) fun _ => .get_bind fun s => ?_
  exact Forgets.ite (c := s.descriptors.room < 2)
    (.bind (.ofThrow _) fun _ => .bind (.ofSet rfl) fun _ => .ofPure _)
    (.bind (.ofSet rfl) fun _ => .ofPure _)

theorem close_forgets (fd : Nat) : Forgets bare (close fd) (close fd) := by
  refine .get_bind fun s => ?_
  exact Forgets.ite (c := s.descriptors.isOpen fd = true) (.ofModify fun _ => rfl) (.ofThrow _)

/-! ### Pipelines -/

theorem launch_forgets (command : Command) (input : Nat) (pipe : Option (Nat × Nat))
    (jobClass : JobClass) :
    Forgets bare (launch command input pipe jobClass) (launch command input pipe jobClass) :=
  .get_bind fun _ => supervise_forgets fun _ =>
    .bind (fork_forgets _) fun pid => register_forgets pid jobClass

theorem spawnStages_forgets (jobClass : JobClass) (input : Nat) (commands : List Command) :
    Forgets bare (spawnStages jobClass input commands) (spawnStages jobClass input commands) := by
  induction commands generalizing input with
  | nil => exact close_forgets input
  | cons command rest ih =>
      cases rest with
      | nil =>
          exact .bind (releasing_forgets _ (launch_forgets _ _ _ _)) fun _ => close_forgets input
      | cons next rest =>
          refine .bind (releasing_forgets _ makePipe_forgets) ?_
          rintro ⟨reader, writer⟩
          exact .bind (releasing_forgets _ (launch_forgets _ _ _ _)) fun _ =>
            .bind (close_forgets input) fun _ => .bind (close_forgets writer) fun _ => ih reader

/-- **A pipeline is run by children the same way.** -/
theorem runForked_forgets (p : Pipeline) : Forgets bare (runForked p) (runForked p) := by
  refine .bind (duplicate_forgets 0) fun input => ?_
  refine .bind (releasing_forgets _ (supervise_forgets fun _ => block_forgets)) fun previous => ?_
  refine restoring_forgets previous (.bind
    (releasing_forgets _ (supervise_forgets fun _ => reapIfNotified_forgets)) fun _ => ?_)
  refine .bind (spawnStages_forgets p.jobClass input p.commands) fun _ => ?_
  exact .ite (supervise_forgets fun _ => waitForeground_forgets) (.ofPure _)

/-! ### Builtin commands -/

theorem receive_forgets (signal : Nat) : Forgets bare (receive signal) (receive signal) := by
  refine .ite (.ofPure _) (.ite (.ofModify fun _ => rfl) ?_)
  cases Signal.default signal with
  | ends => exact .ofThrow _
  | stops => exact .ofThrow _
  | continues | nothing => exact .ofPure _

/-- Whether a signal can be sent or not, it is the same without the record. -/
theorem kill_machine (pid : Int) (signal : Nat) (w : Watched) : Host.kill pid signal w.machine =
    (Host.kill pid signal w).map (Prod.map id Watched.machine) := by
  change w.machine.send w.machine.shellPid w.machine.shellPid pid signal =
    ((w.machine.send w.machine.shellPid w.machine.shellPid pid signal).map _).map _
  cases w.machine.send w.machine.shellPid w.machine.shellPid pid signal <;> rfl

theorem sendSignal_forgets (arguments : List Bytes) :
    Forgets bare (sendSignal arguments) (sendSignal arguments) := by
  unfold sendSignal
  cases killArguments arguments with
  | error error => exact .ofPure _
  | ok request =>
      obtain ⟨signal, pid⟩ := request
      refine .get_bind fun s => ?_
      rw [bare_host, kill_machine]
      rcases Host.kill pid signal s.host with errno | ⟨self, host⟩
      · exact .ofPure _
      · refine .bind (.ofSet rfl) fun _ => ?_
        exact .ite (.bind (receive_forgets signal) fun _ => .ofPure _) (.ofPure _)

theorem changeDirectory_forgets (arguments : List Bytes) :
    Forgets bare (changeDirectory arguments) (changeDirectory arguments) := by
  refine .get_bind fun s => ?_
  have hargument : s.bare.cdArgument arguments = s.cdArgument arguments := rfl
  rw [hargument]
  cases s.cdArgument arguments with
  | error error => exact .ofPure _
  | ok target =>
      refine .ite (.ofPure _) ?_
      have henter : Host.enter s.place target s.host.machine =
          Host.enter s.place target s.host := rfl
      rw [bare_host, bare_place, henter]
      cases Host.enter s.place target s.host with
      | error errno => exact .ofPure _
      | ok place => exact .bind (.ofSet rfl) fun _ => .ofPure _

theorem printDirectory_forgets (arguments : List Bytes) :
    Forgets bare (printDirectory arguments) (printDirectory arguments) := by
  refine .ite (.ofPure _) (.get_bind fun s => ?_)
  have hpath : Host.pathOf s.place s.host.machine = Host.pathOf s.place s.host := rfl
  rw [bare_host, bare_place, hpath]
  cases Host.pathOf s.place s.host with
  | error errno => exact .ofPure _
  | ok path => exact .bind (say_forgets 1 _) fun _ => .ofPure _

theorem requestExit_forgets (arguments : List Bytes) :
    Forgets bare (requestExit arguments) (requestExit arguments) := by
  unfold requestExit
  cases exitArgument arguments with
  | error error => exact .ofPure _
  | ok status => exact .bind (.ofModify fun _ => rfl) fun _ => .ofPure _

theorem callBuiltin_forgets (b : Builtin) (arguments : List Bytes) :
    Forgets bare (callBuiltin b arguments) (callBuiltin b arguments) := by
  cases b with
  | exit => exact requestExit_forgets arguments
  | cd => exact changeDirectory_forgets arguments
  | pwd => exact printDirectory_forgets arguments
  | kill => exact sendSignal_forgets arguments

theorem runBuiltin_forgets (b : Builtin) (command : Command) :
    Forgets bare (runBuiltin b command) (runBuiltin b command) := by
  refine .bind (supervise_forgets fun _ => note_forgets _) fun _ => ?_
  refine .bind (callBuiltin_forgets b command.arguments) fun result => ?_
  cases result with
  | error error => exact say_forgets 2 _
  | ok value => exact .ofPure _

/-! ### Lines -/

theorem execute_forgets (ps : List Pipeline) : Forgets bare (execute ps) (execute ps) := by
  induction ps with
  | nil => exact .ofPure _
  | cons p ps ih =>
      refine .bind ?_ fun _ => .get_bind fun s => ?_
      · unfold runPipeline
        cases p.builtin? with
        | none => exact runForked_forgets p
        | some found => exact runBuiltin_forgets found.1 found.2
      · exact Forgets.ite (c := s.exitRequested.isSome = true) (.ofPure _) ih

/-- **A line does the same without the record**, whatever its text. -/
theorem runLine_forgets (text : Bytes) : Forgets bare (runLine text) (runLine text) := by
  unfold runLine
  cases parse text >>= Line.validate with
  | ok pipelines => exact execute_forgets pipelines
  | error error => exact say_forgets 2 _

theorem runLines_forgets (texts : List Bytes) : Forgets bare (runLines texts) (runLines texts) := by
  induction texts with
  | nil => exact .ofPure _
  | cons text texts ih => exact .bind (runLine_forgets text) fun _ => ih

/-- **Lines come to the same end with a record.** -/
theorem runLines_watched {texts : List Bytes} {s t : Shell Machine} {r : Except Stop Unit}
    (h : (runLines texts).run s = (r, t)) :
    ∃ w, (runLines texts).run s.watched = (r, w) ∧ w.bare = t ∧ w.host.moments = s.moments texts := by
  have hbare := runLines_forgets texts s.watched
  rw [bare_watched, h] at hbare
  obtain ⟨hresult, hstate⟩ := Prod.mk.inj hbare
  exact ⟨_, Prod.ext hresult.symm rfl, hstate.symm, rfl⟩

end Shell

end JobShell
