/-
**What a pipeline can change of the shell itself.**

The working directory and the requested exit status belong to the shell, and the children have
copies of them at most.  So what is run by children leaves both alone, whatever the commands are
called and wherever it stops: among the steps of such a pipeline none has anything to do with them.

A builtin that runs in the shell is the other way round.  It changes the one thing that it is for and
makes no use of the supervisor: no child is started or reaped, no job is booked, and the flag is not
cleared.  The only one that may not come back is a `kill` that reaches the shell.

Main definitions:

* `JobShell.StopsFor`, `JobShell.Stop.Prompt` — the reasons for which a computation stops early, and
  those with which the shell comes back;
* `JobShell.Shell.Personal`, `JobShell.Shell.Abstains` — the shell's own parts are the same, and a
  computation that leaves them so;
* `JobShell.Shell.Confined` — everything is the same but what a builtin is for;
* `JobShell.Shell.StrikesItself` — the arguments of a `kill` after which the shell does not go on.

Main results:

* `JobShell.Shell.runForked_abstains` — running a pipeline by children;
* `JobShell.Shell.runBuiltin_confined` — running a builtin in the shell;
* `JobShell.Pipeline.builtin?_isSome_iff` — which pipelines are run in the shell;
* `JobShell.Shell.runPipeline_frame` — **only a builtin alone touches the shell, and it touches
  nothing else.**
-/

import JobShell.Proofs.Shell

set_option autoImplicit false

namespace JobShell

/-! ### Which pipelines run in the shell -/

theorem Builtin.named?_isSome_iff {name : Bytes} :
    (Builtin.named? name).isSome ↔
      name ∈ [utf8 "exit", utf8 "cd", utf8 "pwd", utf8 "kill"] := by
  unfold Builtin.named?
  simp only [List.mem_cons, List.not_mem_nil, or_false]
  split_ifs <;> simp [*]

/-- **A pipeline runs in the shell exactly if it is one command in the foreground, without
redirections and with the name of a builtin.** -/
theorem Pipeline.builtin?_isSome_iff {p : Pipeline} :
    p.builtin?.isSome ↔
      ∃ command, p.commands = [command] ∧ command.redirections = [] ∧ p.background = false ∧
        command.name ∈ [utf8 "exit", utf8 "cd", utf8 "pwd", utf8 "kill"] := by
  obtain ⟨commands, background⟩ := p
  rcases commands with _ | ⟨command, _ | ⟨next, rest⟩⟩
  · simp [Pipeline.builtin?]
  · by_cases hplain : command.redirections = [] ∧ background = false
    · have hnamed : Pipeline.builtin? ⟨[command], background⟩ =
          (Builtin.named? command.name).map fun b => (b, command) := if_pos hplain
      rw [hnamed, Option.isSome_map, Builtin.named?_isSome_iff]
      simp [hplain]
    · have hnone : Pipeline.builtin? ⟨[command], background⟩ = none := if_neg hplain
      rw [hnone]
      refine ⟨nofun, ?_⟩
      rintro ⟨command', hcommand, hredirections, hbackground, -⟩
      obtain rfl : command = command' := by simpa using hcommand
      exact absurd ⟨hredirections, hbackground⟩ hplain
  · simp [Pipeline.builtin?]

/-! ### Why a computation stops -/

/-- A computation that stops early for some reasons only. -/
def StopsFor {s α : Type} (stops : Stop → Prop) (body : ExceptT Stop (StateM s) α) : Prop :=
  Ensures (fun _ => True) body (OkOr (fun _ _ => True) fun stop _ => stops stop)

/-- The shell has come back from its calls. -/
def Stop.Prompt : Stop → Prop
  | .lost _ => False
  | _ => True

section StopsFor

variable {s α β : Type} {stops : Stop → Prop}

/-- There is always some reason. -/
theorem StopsFor.any {body : ExceptT Stop (StateM s) α} : StopsFor (fun _ => True) body := by
  intro st _
  cases (body.run st).1 <;> trivial

theorem StopsFor.bind {x : ExceptT Stop (StateM s) β} {f : β → ExceptT Stop (StateM s) α}
    (hx : StopsFor stops x) (hf : ∀ b, StopsFor stops (f b)) : StopsFor stops (x >>= f) :=
  Ensures.bind _ hx (fun b => (hf b).pre fun _ _ => trivial) fun _ _ h => h

theorem StopsFor.pure (a : α) : StopsFor stops (pure a : ExceptT Stop (StateM s) α) :=
  Ensures.ofPure fun _ _ => trivial

theorem StopsFor.throw {stop : Stop} (h : stops stop) :
    StopsFor stops (throw stop : ExceptT Stop (StateM s) α) :=
  Ensures.ofThrow fun _ _ => h

theorem StopsFor.get_bind {f : s → ExceptT Stop (StateM s) α} (h : ∀ st, StopsFor stops (f st)) :
    StopsFor stops (get >>= f) :=
  Ensures.get_bind fun st _ => (h st).pre fun _ _ => trivial

theorem StopsFor.modify (f : s → s) :
    StopsFor stops (modify f : ExceptT Stop (StateM s) PUnit) :=
  Ensures.ofModify fun _ _ => trivial

theorem StopsFor.set (st : s) : StopsFor stops (set st : ExceptT Stop (StateM s) PUnit) :=
  Ensures.ofSet fun _ _ => trivial

end StopsFor

namespace Supervisor

variable {σ : Type} [Host σ]

theorem enterCall_prompt (held : Descriptors) (call : SystemCall) :
    StopsFor Stop.Prompt (enterCall held call : Supervised σ Unit) := by
  refine .bind (.modify _) fun _ => .get_bind fun s => ?_
  split
  · exact .throw trivial
  · exact .pure _

/-- A fork is over at once, and so is the listing of the child. -/
theorem launch_prompt (held : Descriptors) (a : Assignment) :
    StopsFor Stop.Prompt
      (do let pid ← fork held a; register pid a.jobClass : Supervised σ Unit) := by
  refine .bind (.bind (enterCall_prompt held .fork) fun _ => .get_bind fun s => ?_) fun pid => ?_
  · exact .bind (.modify _) fun _ => .bind (.modify _) fun _ => .pure _
  · refine .get_bind fun s => ?_
    split
    · exact .set _
    · exact .throw trivial

omit [Host σ] in
theorem reapDead_prompt : StopsFor Stop.Prompt (reapDead : Supervised σ (Option WaitStatus)) := by
  refine .get_bind fun s => ?_
  split
  · exact .pure _
  · refine .bind (.set _) fun _ => ?_
    split
    · exact .bind (.modify _) fun _ => .pure _
    · exact .bind (.modify _) fun _ => .throw trivial

theorem reapAll_prompt (held : Descriptors) (n : Nat) :
    StopsFor Stop.Prompt (reapAll held n : Supervised σ Unit) := by
  induction n with
  | zero => exact .pure _
  | succ n ih =>
      refine .bind (.bind (.modify _) fun _ => reapDead_prompt) ?_
      rintro (_ | status)
      · exact .pure _
      · exact .bind (.modify _) fun _ => ih

theorem reapIfNotified_prompt (held : Descriptors) :
    StopsFor Stop.Prompt (reapIfNotified held : Supervised σ Unit) := by
  have htake : StopsFor Stop.Prompt (takeNotice : Supervised σ Bool) :=
    .get_bind fun _ => .bind (.set _) fun _ => .pure _
  refine .bind htake fun notified => ?_
  split
  · exact .bind htake fun _ => .get_bind fun _ => reapAll_prompt held _
  · exact .pure _

theorem block_prompt (held : Descriptors) :
    StopsFor Stop.Prompt (block held : Supervised σ Bool) :=
  .bind (enterCall_prompt held .sigprocmask) fun _ => .get_bind fun _ =>
    .bind (.set _) fun _ => .pure _

end Supervisor

namespace Shell

variable {σ α β : Type}

/-! ### Pipelines that are run by children -/

/-- The working directory, the home directory and the requested exit status are the same. -/
structure Personal (s t : Shell σ) : Prop where
  place : t.place = s.place
  home : t.home = s.home
  exitRequested : t.exitRequested = s.exitRequested

theorem Personal.refl (s : Shell σ) : Personal s s := ⟨rfl, rfl, rfl⟩

theorem Personal.trans {s t u : Shell σ} (h : Personal s t) (h' : Personal t u) : Personal s u :=
  ⟨h'.place.trans h.place, h'.home.trans h.home, h'.exitRequested.trans h.exitRequested⟩

/-- A computation that leaves the shell's own parts alone, whether it stops early or not, and that
stops early for some reasons only. -/
structure Abstains (stops : Stop → Prop) (body : ShellM σ α) : Prop where
  personal : ∀ s, Ensures (· = s) body fun _ t => Personal s t
  stopsFor : StopsFor stops body

section Abstaining

variable {stops : Stop → Prop}

theorem Abstains.mono {stops' : Stop → Prop} {body : ShellM σ α} (h : Abstains stops body)
    (hle : ∀ stop, stops stop → stops' stop) : Abstains stops' body where
  personal := h.personal
  stopsFor := h.stopsFor.post fun r _ hr => by
    cases r with
    | ok a => trivial
    | error stop => exact hle stop hr

theorem Abstains.bind {x : ShellM σ β} {f : β → ShellM σ α} (hx : Abstains stops x)
    (hf : ∀ b, Abstains stops (f b)) : Abstains stops (x >>= f) where
  personal s := by
    refine Ensures.bind _ (hx.personal s) (fun b => Ensures.of_eq fun t ht => ?_) fun _ _ ht => ht
    exact ((hf b).personal t).post fun _ _ hu => ht.trans hu
  stopsFor := hx.stopsFor.bind fun b => (hf b).stopsFor

theorem Abstains.pure (a : α) : Abstains stops (pure a : ShellM σ α) where
  personal _ := Ensures.ofPure fun _ ht => ht ▸ .refl _
  stopsFor := .pure a

theorem Abstains.throw {stop : Stop} (h : stops stop) :
    Abstains stops (throw stop : ShellM σ α) where
  personal _ := Ensures.ofThrow fun _ ht => ht ▸ .refl _
  stopsFor := .throw h

theorem Abstains.get_bind {f : Shell σ → ShellM σ α} (h : ∀ s, Abstains stops (f s)) :
    Abstains stops (get >>= f) where
  personal _ := Ensures.get_bind fun t ht => ht ▸ (h t).personal t
  stopsFor := .get_bind fun s => (h s).stopsFor

/-- The supervisor knows nothing of the shell's own parts. -/
theorem supervise_abstains {body : Descriptors → Supervised σ α}
    (h : ∀ held, StopsFor stops (body held)) : Abstains stops (supervise body) where
  personal _ := Ensures.supervise fun _ ht _ _ => ht ▸ ⟨rfl, rfl, rfl⟩
  stopsFor := Ensures.supervise fun s _ =>
    ((h s.descriptors).pre fun _ _ => trivial).post fun r _ hr => by cases r <;> exact hr

theorem setDescriptors_abstains (d : Descriptors) :
    Abstains stops (setDescriptors d : ShellM σ Unit) where
  personal _ := Ensures.ofModify fun _ ht => ht ▸ ⟨rfl, rfl, rfl⟩
  stopsFor := .modify _

theorem Abstains.releasing {fds : List Nat} {body : ShellM σ α} (h : Abstains stops body) :
    Abstains stops (releasing fds body) where
  personal s := Ensures.releasing (h.personal s) (fun _ _ ht => ht) fun _ _ ht =>
    ⟨ht.place, ht.home, ht.exitRequested⟩
  stopsFor := Ensures.releasing h.stopsFor (fun _ _ _ => trivial) fun _ _ ht => ht

theorem Abstains.restoring {previous : Bool} {body : ShellM σ α} (h : Abstains stops body) :
    Abstains stops (restoring previous body) where
  personal s := Ensures.restoring ((h.personal s).post fun _ _ ht =>
    ⟨ht.place, ht.home, ht.exitRequested⟩)
  stopsFor := Ensures.restoring (h.stopsFor.post fun r _ hr => by cases r <;> exact hr)

end Abstaining

theorem close_abstains (fd : Nat) : Abstains Stop.Prompt (close fd : ShellM σ Unit) := by
  refine .get_bind fun s => ?_
  simp only
  split
  · exact setDescriptors_abstains _
  · exact .throw trivial

variable [Host σ]

theorem duplicate_abstains (fd : Nat) : Abstains Stop.Prompt (duplicate fd : ShellM σ Nat) := by
  refine .bind (supervise_abstains fun held => Supervisor.enterCall_prompt held .dup) fun _ => ?_
  refine .get_bind fun s => ?_
  simp only
  split
  · exact .throw trivial
  · split
    · exact .throw trivial
    · exact .bind (setDescriptors_abstains _) fun _ => .pure _

theorem makePipe_abstains : Abstains Stop.Prompt (makePipe : ShellM σ (Nat × Nat)) := by
  refine .bind (supervise_abstains fun held => Supervisor.enterCall_prompt held .pipe) fun _ => ?_
  refine ⟨fun s => Ensures.get_bind ?_, .get_bind fun s => ?_⟩
  · rintro s rfl
    by_cases hroom : s.descriptors.room < 2
    · rw [if_pos hroom]
      refine Ensures.throw_bind ?_
      rintro _ rfl
      exact .refl _
    · rw [if_neg hroom]
      refine Ensures.set_bind fun _ _ => Ensures.ofPure ?_
      rintro _ rfl
      exact ⟨rfl, rfl, rfl⟩
  · simp only
    split
    · exact Ensures.throw_bind fun _ _ => trivial
    · exact .bind (.set _) fun _ => .pure _

theorem launch_abstains (command : Command) (input : Nat) (pipe : Option (Nat × Nat))
    (jobClass : JobClass) :
    Abstains Stop.Prompt (launch command input pipe jobClass : ShellM σ Unit) :=
  .get_bind fun _ => supervise_abstains fun held => Supervisor.launch_prompt held _

/-- Launching the commands of a pipeline leaves the shell's own parts alone, and comes back. -/
theorem spawnStages_abstains (jobClass : JobClass) (input : Nat) (commands : List Command) :
    Abstains Stop.Prompt (spawnStages jobClass input commands : ShellM σ Unit) := by
  induction commands generalizing input with
  | nil => exact close_abstains input
  | cons command rest ih =>
      cases rest with
      | nil => exact .bind (.releasing (launch_abstains _ _ _ _)) fun _ => close_abstains input
      | cons next rest =>
          refine .bind (.releasing makePipe_abstains) fun ⟨reader, writer⟩ => ?_
          refine .bind (.releasing (launch_abstains _ _ _ _)) fun _ => ?_
          exact .bind (close_abstains input) fun _ => .bind (close_abstains writer) fun _ => ih reader

/-- **What children run leaves the shell's own parts alone**, and only waiting for the foreground may
not come back. -/
theorem runForked_abstains (p : Pipeline) {stops : Stop → Prop}
    (hprompt : ∀ stop : Stop, stop.Prompt → stops stop)
    (hwait : p.background = false → ∀ held,
      StopsFor stops (Supervisor.waitForeground held : Supervised σ Unit)) :
    Abstains stops (runForked p : ShellM σ Unit) := by
  refine .bind ((duplicate_abstains 0).mono hprompt) fun input => ?_
  refine .bind (.releasing ((supervise_abstains Supervisor.block_prompt).mono hprompt)) ?_
  refine fun previous => .restoring ?_
  refine .bind (.releasing ((supervise_abstains Supervisor.reapIfNotified_prompt).mono hprompt)) ?_
  refine fun _ => .bind ((spawnStages_abstains _ _ _).mono hprompt) fun _ => ?_
  split
  · next hforeground => exact supervise_abstains (hwait hforeground)
  · exact .pure _

/-! ### Builtins that run in the shell -/

/-- Everything is the same but the system and what the builtin is for: the working directory is for
`cd` to change, and the requested exit status for `exit`.  A flag that is raised stays raised. -/
structure Confined (b : Builtin) (s t : Shell σ) : Prop where
  children : t.children = s.children
  jobs : t.jobs = s.jobs
  journal : t.journal = s.journal
  descriptors : t.descriptors = s.descriptors
  home : t.home = s.home
  notified : s.signal.notified = true → t.signal.notified = true
  blocked : t.signal.blocked = s.signal.blocked
  place : b ≠ .cd → t.place = s.place
  exitRequested : b ≠ .exit → t.exitRequested = s.exitRequested

omit [Host σ] in
theorem Confined.refl (b : Builtin) (s : Shell σ) : Confined b s s :=
  ⟨rfl, rfl, rfl, rfl, rfl, id, rfl, fun _ => rfl, fun _ => rfl⟩

omit [Host σ] in
theorem Confined.trans {b : Builtin} {s t u : Shell σ} (h : Confined b s t) (h' : Confined b t u) :
    Confined b s u where
  children := h'.children.trans h.children
  jobs := h'.jobs.trans h.jobs
  journal := h'.journal.trans h.journal
  descriptors := h'.descriptors.trans h.descriptors
  home := h'.home.trans h.home
  notified := h'.notified ∘ h.notified
  blocked := h'.blocked.trans h.blocked
  place hb := (h'.place hb).trans (h.place hb)
  exitRequested hb := (h'.exitRequested hb).trans (h.exitRequested hb)

omit [Host σ] in
/-- Nothing of the shell but the system has changed. -/
theorem Confined.setHost (b : Builtin) (s : Shell σ) (host : σ) :
    Confined b s { s with host := host } :=
  ⟨rfl, rfl, rfl, rfl, rfl, id, rfl, fun _ => rfl, fun _ => rfl⟩

/-- With these arguments `kill` sends a signal that the shell receives too, and after which it does
not go on. -/
def StrikesItself (arguments : List Bytes) (s : Shell σ) (loss : Loss) : Prop :=
  ∃ signal pid host, killArguments arguments = .ok (signal, pid) ∧
    Host.kill pid signal s.host = .ok (true, host) ∧ Signal.loss? signal = some loss

/-- The builtin comes back, unless it is a `kill` that strikes the shell. -/
def Returns (b : Builtin) (arguments : List Bytes) (s : Shell σ) : Except Stop α → Prop
  | .ok _ => True
  | .error stop => b = .kill ∧ ∃ loss, StrikesItself arguments s loss ∧ stop = .lost loss

/-- What is said of a builtin that begins at `s`. -/
def Behaves (b : Builtin) (arguments : List Bytes) (s : Shell σ) (r : Except Stop α)
    (t : Shell σ) : Prop :=
  Returns b arguments s r ∧ Confined b s t

theorem say_confined (b : Builtin) {s : Shell σ} (fd : Nat) (text : Bytes) :
    Ensures (· = s) (say fd text) (Surely fun _ t => Confined b s t) := by
  refine Ensures.ofModify ?_
  rintro s rfl
  cases h : s.descriptors.file? fd with
  | none => exact .refl b s
  | some file => exact .setHost b s _

omit [Host σ] in
/-- What the shell sends to itself raises the flag at most. -/
theorem receive_confined {s : Shell σ} (signal : Nat) :
    Ensures (· = s) (receive signal) fun r t =>
      Confined .kill s t ∧ ∀ stop, r = .error stop →
        ∃ loss, Signal.loss? signal = some loss ∧ stop = .lost loss := by
  have hconfined : Ensures (· = s) (receive signal) fun _ t => Confined .kill s t := by
    unfold receive
    split_ifs
    · exact Ensures.ofPure fun t ht => ht ▸ .refl _ t
    · refine Ensures.ofModify ?_
      rintro s rfl
      exact ⟨rfl, rfl, rfl, rfl, rfl, ChildSignal.raise_notified, ChildSignal.raise_blocked _,
        fun _ => rfl, fun _ => rfl⟩
    · cases Signal.default signal with
      | ends | stops => exact Ensures.ofThrow fun t ht => ht ▸ .refl _ t
      | continues | nothing => exact Ensures.ofPure fun t ht => ht ▸ .refl _ t
  intro t ht
  have hensures := receive_ensures signal t ht
  refine ⟨hconfined t ht, fun stop hstop => ?_⟩
  rw [hstop] at hensures
  exact hensures.2

/-- What is planned for a builtin is what it is for. -/
theorem Planned.behaves {s : Shell σ} {b : Builtin} {arguments : List Bytes}
    {deed : ShellM σ Unit} (h : Planned s arguments b deed) :
    Ensures (· = s) deed (Behaves b arguments s) := by
  cases h with
  | exit _ =>
      refine Ensures.ofModify ?_
      rintro s rfl
      exact ⟨trivial, rfl, rfl, rfl, rfl, rfl, id, rfl, fun _ => rfl, fun h => absurd rfl h⟩
  | cd _ =>
      refine Ensures.ofModify ?_
      rintro s rfl
      exact ⟨trivial, rfl, rfl, rfl, rfl, rfl, id, rfl, fun h => absurd rfl h, fun _ => rfl⟩
  | pwd path =>
      refine (say_confined .pwd 1 _).post ?_
      rintro (stop | _) t ht
      · exact ht.elim
      · exact ⟨trivial, ht⟩
  | @kill signal pid self host harguments hkill =>
      refine Ensures.modify_bind ?_
      rintro s rfl
      cases self with
      | false =>
          refine Ensures.ofPure ?_
          rintro _ rfl
          exact ⟨trivial, .setHost .kill s host⟩
      | true =>
          refine (receive_confined signal).post ?_
          rintro (stop | _) t ⟨ht, hstop⟩
          · obtain ⟨loss, hloss, rfl⟩ := hstop _ rfl
            exact ⟨⟨rfl, loss, ⟨signal, pid, host, harguments, hkill, hloss⟩, rfl⟩,
              (Confined.setHost .kill s host).trans ht⟩
          · exact ⟨trivial, (Confined.setHost .kill s host).trans ht⟩

/-- **A builtin does what it is for, and nothing else.** -/
theorem callBuiltin_behaves {s : Shell σ} (b : Builtin) (arguments : List Bytes) :
    Ensures (· = s) (callBuiltin b arguments) (Behaves b arguments s) := by
  refine callBuiltin_ensures (fun _ => ⟨trivial, .refl b s⟩) fun deed hdeed => ?_
  refine Ensures.bind _ hdeed.behaves (fun _ => Ensures.ofPure fun t ht => ⟨trivial, ht.2⟩) ?_
  exact fun stop t ht => ht

/-- **Running a builtin in the shell** adds to the journal that it was run. -/
theorem runBuiltin_confined {s : Shell σ} (b : Builtin) (command : Command) :
    Ensures (· = s) (runBuiltin b command) fun r t =>
      Returns b command.arguments s r ∧
        Confined b { s with journal := s.journal ++ [.builtin command.name] } t := by
  have hnote : Ensures (· = s) (supervise fun _ => Supervisor.note (.builtin command.name))
      (Gives (.ok ⟨⟩) { s with journal := s.journal ++ [.builtin command.name] }) := by
    rintro _ rfl
    exact ⟨rfl, rfl⟩
  refine Ensures.after hnote (Ensures.bind _ (callBuiltin_behaves b command.arguments) ?_ ?_)
  · rintro (e | _)
    · refine Ensures.of_eq fun t ht => (say_confined b 2 _).post ?_
      rintro (stop | _) u hu
      · exact hu.elim
      · exact ⟨trivial, ht.2.trans hu⟩
    · exact Ensures.ofPure fun t ht => ⟨trivial, ht.2⟩
  · exact fun stop t ht => ht

/-! ### The pipeline as a whole -/

/-- **Only a builtin alone touches the shell, and it touches nothing else.**  On every host, in every
state and for every pipeline there are two cases.

If the pipeline is a builtin alone, no child is started or reaped, every descriptor is as it was, the
lists of running and completed jobs are as they were, and the flag that tells of dead children is
not lowered; the working directory is changed by `cd` only and the requested exit status by `exit`
only; and the pipeline comes to its end, unless it is a `kill` by which the shell is struck.

If it is not, the working directory and the requested exit status are what they were, whatever the
commands are called, whatever the children do, and whether the pipeline comes to its end or a call
fails on the way.

The first case is that of one command in the foreground, without redirections and with the name of a
builtin. -/
theorem runPipeline_frame (p : Pipeline) (s : Shell σ) :
    (match p.builtin? with
      | some (b, command) =>
          Returns b command.arguments s ((runPipeline p).run s).1 ∧
            Confined b { s with journal := s.journal ++ [.builtin command.name] }
              ((runPipeline p).run s).2
      | none => Personal s ((runPipeline p).run s).2) ∧
      (p.builtin?.isSome ↔
        ∃ command, p.commands = [command] ∧ command.redirections = [] ∧ p.background = false ∧
          command.name ∈ [utf8 "exit", utf8 "cd", utf8 "pwd", utf8 "kill"]) := by
  refine ⟨?_, Pipeline.builtin?_isSome_iff⟩
  unfold runPipeline
  cases p.builtin? with
  | some found => exact runBuiltin_confined found.1 found.2 s rfl
  | none => exact (runForked_abstains p (fun _ _ => trivial) fun _ _ => .any).personal s s rfl

end Shell

end JobShell
