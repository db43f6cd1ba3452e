/-
**What a line comes to.**

Whatever the table of the shell holds, running a line makes moves of the supervisor only.  It stops
early for one of the reasons for which the supervisor stops, or because the table itself lets a call
fail: there is nothing to duplicate, there is no room for a pipe, a number is not open.  Nothing is
assumed of the host, of the table or of the line.

Main definitions:

* `JobShell.Supervisor.Proceeds` — moves, and a stop of either kind;
* `JobShell.Pipeline.Assigns`, `JobShell.Shell.pipelinesOf` — what a line launches.

Main results:

* `JobShell.Shell.runForked_proceeds` — running a pipeline by children;
* `JobShell.Shell.runLine_proceeds` — **running a line**.
-/

import JobShell.Proofs.Shell

set_option autoImplicit false

namespace JobShell

/-- The assignments of the children of a pipeline. -/
def Pipeline.Assigns (p : Pipeline) (a : Assignment) : Prop :=
  a.command ∈ p.commands ∧ a.jobClass = p.jobClass

/-! ### Moves, and a stop -/

namespace Supervisor

variable {σ : Type} [Host σ] {launching : Assignment → Prop} {s t u : Supervisor σ} {α β : Type}

/-- What a computation comes to that may also fail for a reason of which the supervisor knows
nothing. -/
def Proceeds (launching : Assignment → Prop) (s : Supervisor σ) (r : Except Stop α)
    (t : Supervisor σ) : Prop :=
  Comes launching s r t ∨ ∃ e, r = .error (.failed e) ∧ Reaches launching s t

/-- What has a result has made moves only. -/
theorem Proceeds.reaches {a : α} (h : Proceeds launching s (.ok a) t) : Reaches launching s t := by
  rcases h with h | ⟨e, he, -⟩
  · exact h
  · cases he

/-- What has stopped early gives no result of any type. -/
theorem Proceeds.error {stop : Stop} (h : Proceeds launching s (.error stop : Except Stop β) t) :
    Proceeds launching s (.error stop : Except Stop α) t := by
  rcases h with h | ⟨e, he, hreaches⟩
  · exact .inl h
  · obtain rfl := Except.error.inj he
    exact .inr ⟨e, rfl, hreaches⟩

theorem Proceeds.of_reaches {r : Except Stop α} (h : Reaches launching s t)
    (h' : Proceeds launching t r u) : Proceeds launching s r u := by
  rcases h' with h' | ⟨e, he, hreaches⟩
  · exact .inl (Comes.of_reaches h h')
  · exact .inr ⟨e, he, h.trans hreaches⟩

theorem Proceeds.tail {r : Except Stop α} (h : Proceeds launching s r t)
    (hmove : Moves launching t u) : Proceeds launching s r u := by
  rcases h with h | ⟨e, he, hreaches⟩
  · exact .inl (h.tail hmove)
  · exact .inr ⟨e, he, hreaches.tail hmove⟩

/-- What every move keeps, and every stop, is kept whatever the reason to stop is. -/
theorem Proceeds.keeps {I : Supervisor σ → Prop} {r : Except Stop α}
    (h : Proceeds launching s r t) (hmove : ∀ u v, Moves launching u v → I u → I v)
    (hstop : ∀ u stop v, Stops launching u stop v → I u → I v) (hs : I s) : I t := by
  rcases h with h | ⟨-, -, hreaches⟩
  · exact h.keeps hmove hstop hs
  · exact hreaches.keeps hmove hs

end Supervisor

open Supervisor (Comes Reaches Proceeds)

/-! ### Putting computations together -/

namespace Shell

variable {σ : Type} [Host σ] {launching : Assignment → Prop} {s : Shell σ} {α β : Type}

/-- The same of a computation on the shell. -/
def ProceedsOn (launching : Assignment → Prop) (s : Shell σ) (r : Except Stop α) (t : Shell σ) :
    Prop :=
  Proceeds launching s.toSupervisor r t.toSupervisor

theorem ProceedsOn.bind {x : ShellM σ β} {f : β → ShellM σ α}
    (hx : Ensures (· = s) x (ProceedsOn launching s))
    (hf : ∀ b t, Ensures (· = t) (f b) (ProceedsOn launching t)) :
    Ensures (· = s) (x >>= f) (ProceedsOn launching s) := by
  refine Ensures.bind _ hx ?_ ?_
  · intro b
    refine Ensures.of_eq ?_
    intro t ht
    exact (hf b t).post fun r u hu => Proceeds.of_reaches ht.reaches hu
  · intro stop t ht
    exact Proceeds.error ht

theorem ProceedsOn.ofPure {a : α} :
    Ensures (· = s) (pure a : ShellM σ α) (ProceedsOn launching s) := by
  refine Ensures.ofPure ?_
  rintro _ rfl
  exact .inl .refl

/-- What the supervisor comes to. -/
theorem supervise_proceeds {body : Descriptors → Supervised σ α}
    (h : ∀ held, Ensures (Reaches launching s.toSupervisor) (body held)
      (Comes launching s.toSupervisor)) :
    Ensures (· = s) (supervise body) (ProceedsOn launching s) := by
  refine Ensures.supervise ?_
  rintro _ rfl
  exact (Supervisor.ensures_of_reaches (h _)).post fun r v hv => .inl hv

theorem ProceedsOn.releasing {fds : List Nat} {body : ShellM σ α}
    (h : Ensures (· = s) body (ProceedsOn launching s)) :
    Ensures (· = s) (releasing fds body) (ProceedsOn launching s) :=
  Ensures.releasing h (fun _ _ ht => ht) fun _ _ ht => ht

theorem ProceedsOn.restoring {previous : Bool} {body : ShellM σ α}
    (h : Ensures (· = s) body (ProceedsOn launching s)) :
    Ensures (· = s) (restoring previous body) (ProceedsOn launching s) :=
  Ensures.restoring (h.post fun _ _ ht => Proceeds.tail ht (.signal _ _))

theorem ProceedsOn.of_spares {r : Except Stop α} {t : Shell σ} (h : Spares s r t) :
    ProceedsOn launching s r t :=
  .inl (h.comes.mono fun _ => False.elim)

/-- The table lets a call fail. -/
theorem fail_proceeds (call : SystemCall) (errno : Errno) :
    Ensures (· = s) (fail call errno : ShellM σ α) (ProceedsOn launching s) := by
  refine Ensures.ofThrow ?_
  rintro _ rfl
  exact .inr ⟨⟨call, errno⟩, rfl, .refl⟩

theorem setDescriptors_proceeds (d : Descriptors) :
    Ensures (· = s) (setDescriptors d) (ProceedsOn launching s) := by
  refine Ensures.ofModify ?_
  rintro _ rfl
  exact .inl .refl

/-! ### Running a line -/

theorem duplicate_proceeds (fd : Nat) :
    Ensures (· = s) (duplicate fd) (ProceedsOn launching s) := by
  refine ProceedsOn.bind (supervise_proceeds fun held => Supervisor.enterCall_comes held .dup) ?_
  refine fun _ t => Ensures.get_bind ?_
  rintro t rfl
  cases hfile : t.descriptors.file? fd with
  | none =>
      simp only [hfile]
      exact fail_proceeds _ _
  | some file =>
      simp only [hfile]
      cases t.descriptors.allocate? file 0 with
      | none => exact fail_proceeds _ _
      | some found =>
          exact ProceedsOn.bind (setDescriptors_proceeds _) fun _ _ => ProceedsOn.ofPure

theorem makePipe_proceeds : Ensures (· = s) makePipe (ProceedsOn launching s) := by
  refine ProceedsOn.bind (supervise_proceeds fun held => Supervisor.enterCall_comes held .pipe) ?_
  refine fun _ t => Ensures.get_bind ?_
  rintro t rfl
  by_cases hroom : t.descriptors.room < 2
  · rw [if_pos hroom]
    refine Ensures.throw_bind ?_
    rintro _ rfl
    exact .inr ⟨_, rfl, .refl⟩
  · rw [if_neg hroom]
    refine Ensures.set_bind fun _ _ => Ensures.ofPure ?_
    rintro _ rfl
    exact .inl (.single (.pipe t.toSupervisor))

theorem close_proceeds (fd : Nat) : Ensures (· = s) (close fd) (ProceedsOn launching s) := by
  refine Ensures.get_bind ?_
  rintro t rfl
  simp only
  split
  · exact setDescriptors_proceeds _
  · exact fail_proceeds _ _

theorem launch_proceeds (command : Command) (input : Nat) (pipe : Option (Nat × Nat))
    (jobClass : JobClass)
    (h : ∀ a : Assignment, a.command = command → a.jobClass = jobClass → launching a) :
    Ensures (· = s) (launch command input pipe jobClass) (ProceedsOn launching s) := by
  refine Ensures.get_bind ?_
  rintro t rfl
  exact supervise_proceeds fun held => Supervisor.launch_comes held (a :=
    { command := command
      jobClass := jobClass
      input := input
      pipe := pipe
      descriptors := t.descriptors
      place := t.place }) (h _ rfl rfl)

/-- Launching the commands of a pipeline. -/
theorem spawnStages_proceeds (jobClass : JobClass) (input : Nat) (commands : List Command)
    (h : ∀ a : Assignment, a.command ∈ commands → a.jobClass = jobClass → launching a) :
    Ensures (· = s) (spawnStages jobClass input commands) (ProceedsOn launching s) := by
  have hlaunch : ∀ command ∈ commands, ∀ (input : Nat) (pipe : Option (Nat × Nat)) (t : Shell σ),
      Ensures (· = t) (launch command input pipe jobClass) (ProceedsOn launching t) :=
    fun command hmem input pipe t =>
      launch_proceeds command input pipe jobClass fun a ha => h a (ha ▸ hmem)
  induction commands generalizing input s with
  | nil => exact close_proceeds input
  | cons command rest ih =>
      cases rest with
      | nil =>
          refine ProceedsOn.bind (ProceedsOn.releasing (hlaunch _ (by simp) _ _ _)) ?_
          exact fun _ t => close_proceeds input
      | cons next rest =>
          refine ProceedsOn.bind (ProceedsOn.releasing makePipe_proceeds) ?_
          rintro ⟨reader, writer⟩ t
          refine ProceedsOn.bind (ProceedsOn.releasing (hlaunch _ (by simp) _ _ _)) fun _ u => ?_
          refine ProceedsOn.bind (close_proceeds input) fun _ v => ?_
          refine ProceedsOn.bind (close_proceeds writer) fun _ w => ?_
          exact ih reader (fun a ha => h a (List.mem_cons_of_mem _ ha))
            fun command hmem => hlaunch command (List.mem_cons_of_mem _ hmem)

/-- **Running a pipeline by children**, with whatever descriptors. -/
theorem runForked_proceeds (p : Pipeline) (h : ∀ a, p.Assigns a → launching a) :
    Ensures (· = s) (runForked p) (ProceedsOn launching s) := by
  refine ProceedsOn.bind (duplicate_proceeds 0) fun input t => ?_
  refine ProceedsOn.bind (ProceedsOn.releasing (supervise_proceeds Supervisor.block_comes)) ?_
  refine fun previous u => ProceedsOn.restoring ?_
  refine ProceedsOn.bind
    (ProceedsOn.releasing (supervise_proceeds Supervisor.reapIfNotified_comes)) ?_
  refine fun _ v => ProceedsOn.bind (spawnStages_proceeds _ _ _ fun a ha hc => h a ⟨ha, hc⟩) ?_
  refine fun _ w => ?_
  split
  · exact supervise_proceeds fun held =>
      (Supervisor.waitForeground_comes held).post fun _ _ h => h.1
  · exact ProceedsOn.ofPure

theorem runPipeline_proceeds (p : Pipeline) (h : ∀ a, p.Assigns a → launching a) :
    Ensures (· = s) (runPipeline p) (ProceedsOn launching s) := by
  unfold runPipeline
  cases p.builtin? with
  | some found => exact (runBuiltin_spares found.1 found.2).post fun _ _ => .of_spares
  | none => exact runForked_proceeds p h

theorem execute_proceeds (ps : List Pipeline) (h : ∀ p ∈ ps, ∀ a, p.Assigns a → launching a) :
    Ensures (· = s) (execute ps) (ProceedsOn launching s) := by
  induction ps generalizing s with
  | nil => exact ProceedsOn.ofPure
  | cons p ps ih =>
      refine ProceedsOn.bind (runPipeline_proceeds p (h p (List.mem_cons_self ..))) fun _ t => ?_
      refine Ensures.get_bind ?_
      rintro t rfl
      split
      · exact ProceedsOn.ofPure
      · exact ih fun p hp => h p (List.mem_cons_of_mem _ hp)

/-- The pipelines of a text, if it can be run as a line. -/
def pipelinesOf (text : Bytes) : List Pipeline := ((parse text >>= Line.validate).toOption).getD []

/-- **Running a line**, whatever its text. -/
theorem runLine_proceeds (text : Bytes)
    (h : ∀ p ∈ pipelinesOf text, ∀ a, p.Assigns a → launching a) :
    Ensures (· = s) (runLine text) (ProceedsOn launching s) := by
  unfold runLine
  unfold pipelinesOf at h
  cases hline : parse text >>= Line.validate with
  | ok ps =>
      rw [hline] at h
      exact execute_proceeds ps h
  | error e => exact (say_spares 2 syntaxError).post fun _ _ => .of_spares

end Shell

end JobShell
