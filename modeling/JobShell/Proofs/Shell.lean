/-
**What the shell's computations come to.**

To the supervisor in the shell nothing happens but its moves, whatever the shell runs.  The
descriptors are another matter: a pipeline takes some for itself, and when it is over, whether it
came to its end or stopped early, the table is the same as before.  If there is room for three more
the table is never too small, however many commands the pipeline has: the room that a pipe takes is
given back before the next one is made.

Main definitions:

* `JobShell.Shell.passed` — the shell after some time;
* `JobShell.Shell.Becomes` — a computation of moves, and the descriptors after it.

Main results:

* `JobShell.Shell.spawnStages_becomes` — launching the commands of a pipeline;
* `JobShell.Shell.runForked_becomes` — running a pipeline by children.
-/

import JobShell.Proofs.Builtin
import JobShell.Proofs.Descriptors
import JobShell.Proofs.Job.Supervision

set_option autoImplicit false

namespace JobShell

open Supervisor (Reaches Comes)

namespace Shell

variable {σ : Type} [Host σ] {launching : Assignment → Prop} {α β : Type}

/-- Time passes. -/
def passed (s : Shell σ) : Shell σ :=
  { s with toSupervisor := s.toSupervisor.drifted s.descriptors }

/-- A computation that starts at `s` makes moves, ends with `after`, and changes nothing of the
shell but the supervisor and the descriptors. -/
structure Becomes (launching : Assignment → Prop) (s : Shell σ)
    (after : Except Stop α → Shell σ → Prop) (r : Except Stop α) (t : Shell σ) : Prop where
  comes : Comes launching s.toSupervisor r t.toSupervisor
  after : after r t
  place : t.place = s.place
  home : t.home = s.home
  exitRequested : t.exitRequested = s.exitRequested

/-! ### Putting computations together -/

theorem Becomes.post {s t : Shell σ} {r : Except Stop α} {mid after : Except Stop α → Shell σ → Prop}
    (h : Becomes launching s mid r t) (hafter : mid r t → after r t) :
    Becomes launching s after r t :=
  ⟨h.comes, hafter h.after, h.place, h.home, h.exitRequested⟩

/-- One computation after another.  Whichever stops early, the same is said of the end. -/
theorem Becomes.bind {s : Shell σ} {x : ShellM σ β} {f : β → ShellM σ α}
    {mid : Except Stop β → Shell σ → Prop} {after : Except Stop α → Shell σ → Prop}
    (hx : Ensures (· = s) x (Becomes launching s mid))
    (hf : ∀ b t, mid (.ok b) t → Ensures (· = t) (f b) (Becomes launching t after))
    (herror : ∀ stop t, mid (.error stop) t → after (.error stop) t) :
    Ensures (· = s) (x >>= f) (Becomes launching s after) := by
  refine Ensures.bind _ hx (fun b => Ensures.of_eq fun t ht => (hf b t ht.after).post ?_) ?_
  · intro r u hu
    exact ⟨Comes.of_reaches ht.comes hu.comes, hu.after, hu.place.trans ht.place,
      hu.home.trans ht.home, hu.exitRequested.trans ht.exitRequested⟩
  · intro stop t ht
    exact ⟨ht.comes, herror stop _ ht.after, ht.place, ht.home, ht.exitRequested⟩

/-- What the supervisor does leaves the descriptors alone. -/
theorem supervise_becomes {s : Shell σ} {body : Descriptors → Supervised σ α}
    (h : ∀ held, Ensures (Reaches launching s.toSupervisor) (body held)
      (Comes launching s.toSupervisor)) :
    Ensures (· = s) (supervise body)
      (Becomes launching s fun _ t => t.descriptors = s.descriptors) := by
  refine Ensures.supervise ?_
  rintro _ rfl
  exact (Supervisor.ensures_of_reaches (h _)).post fun r v hv => ⟨hv, rfl, rfl, rfl, rfl⟩

/-- Descriptors that are free again if the computation stops early. -/
theorem Becomes.releasing {s : Shell σ} {fds : List Nat} {body : ShellM σ α}
    {mid : Except Stop α → Shell σ → Prop} (after : Except Stop α → Shell σ → Prop)
    (h : Ensures (· = s) body (Becomes launching s mid))
    (hok : ∀ a t, mid (.ok a) t → after (.ok a) t)
    (herror : ∀ stop t, mid (.error stop) t →
      after (.error stop) { t with descriptors := fds.foldl Descriptors.close t.descriptors }) :
    Ensures (· = s) (releasing fds body) (Becomes launching s after) := by
  refine Ensures.releasing h ?_ ?_
  · intro a t ht
    exact ⟨ht.comes, hok a _ ht.after, ht.place, ht.home, ht.exitRequested⟩
  · intro stop t ht
    exact ⟨ht.comes, herror stop _ ht.after, ht.place, ht.home, ht.exitRequested⟩

/-- The mask is put back, which is one more move. -/
theorem Becomes.restoring {s : Shell σ} {previous : Bool} {body : ShellM σ α}
    {after : Except Stop α → Shell σ → Prop} (h : Ensures (· = s) body (Becomes launching s after))
    (hafter : ∀ r t signal, after r t → after r { t with signal := signal }) :
    Ensures (· = s) (restoring previous body) (Becomes launching s after) := by
  refine Ensures.restoring (h.post fun r t ht => ?_)
  exact ⟨ht.comes.tail (.signal _ _), hafter r t _ ht.after, ht.place, ht.home, ht.exitRequested⟩

/-! ### Descriptors -/

/-- A file has been given a number that was free, unless that failed. -/
def Assigned (d : Descriptors) (file : OpenFile) : Except Stop Nat → Shell σ → Prop
  | .ok new, t => d.isOpen new = false ∧ t.descriptors = d.assign new file
  | .error _, t => t.descriptors = d

/-- A pipe has been given two numbers that were free, unless that failed. -/
def Piped (d : Descriptors) : Except Stop (Nat × Nat) → Shell σ → Prop
  | .ok (reader, writer), t =>
      ∃ pipe, d.isOpen reader = false ∧ (d.assign reader (.pipeReader pipe)).isOpen writer = false ∧
        t.descriptors = (d.assign reader (.pipeReader pipe)).assign writer (.pipeWriter pipe)
  | .error _, t => t.descriptors = d

/-- A number has been freed, which cannot fail. -/
def Closed (d : Descriptors) (fd : Nat) : Except Stop Unit → Shell σ → Prop
  | .ok _, t => t.descriptors = d.close fd
  | .error _, _ => False

/-- The table at the end of a computation, and the table after a stop. -/
def Holding (d d' : Descriptors) : Except Stop α → Shell σ → Prop
  | .ok _, t => t.descriptors = d
  | .error _, t => t.descriptors = d'

/-- The table in which a command is launched that writes a pipe, or the table after a stop. -/
def Connecting (base : Descriptors) (input : Nat) (file : OpenFile) :
    Except Stop (Nat × Nat) → Shell σ → Prop
  | .ok (reader, writer), t =>
      ∃ pipe, Descriptors.Connected base input file reader writer pipe t.descriptors
  | .error _, t => t.descriptors = base

/-- Duplicating an open descriptor takes one that is free, if there is room. -/
theorem duplicate_becomes {s : Shell σ} {fd : Nat} {file : OpenFile}
    (hfile : s.descriptors.file? fd = some file) (hroom : s.descriptors.room ≠ 0) :
    Ensures (· = s) (duplicate fd) (Becomes launching s (Assigned s.descriptors file)) := by
  refine Becomes.bind (supervise_becomes fun held => Supervisor.enterCall_comes held .dup) ?_
    fun _ _ h => h
  intro _ t ht
  refine Ensures.get_bind ?_
  rintro t rfl
  have hallocate : t.descriptors.allocate? file 0 = some (s.descriptors.leastFree 0,
      s.descriptors.assign (s.descriptors.leastFree 0) file) := by
    rw [ht, Descriptors.allocate?_eq_some_iff]
    exact ⟨hroom, rfl, rfl⟩
  have hfile' : t.descriptors.file? fd = some file := by rw [ht]; exact hfile
  simp only [hfile', hallocate]
  refine Ensures.modify_bind ?_
  rintro _ rfl
  refine Ensures.ofPure ?_
  rintro _ rfl
  exact ⟨.refl, ⟨Descriptors.leastFree_free _ 0, rfl⟩, rfl, rfl, rfl⟩

/-- A pipe takes two descriptors that are free, if there is room. -/
theorem makePipe_becomes {s : Shell σ} (hroom : 2 ≤ s.descriptors.room) :
    Ensures (· = s) makePipe (Becomes launching s (Piped s.descriptors)) := by
  refine Becomes.bind (supervise_becomes fun held => Supervisor.enterCall_comes held .pipe) ?_
    fun _ _ h => h
  intro _ t ht
  refine Ensures.get_bind ?_
  rintro t rfl
  rw [if_neg (by rw [ht]; omega)]
  refine Ensures.set_bind fun _ _ => Ensures.ofPure ?_
  rintro _ rfl
  refine ⟨Relation.ReflTransGen.single (.pipe t.toSupervisor), ?_, rfl, rfl, rfl⟩
  rw [← ht]
  exact ⟨_, Descriptors.leastFree_free _ 0, Descriptors.leastFree_free _ 0, rfl⟩

theorem close_becomes {s : Shell σ} {fd : Nat} (hopen : s.descriptors.isOpen fd = true) :
    Ensures (· = s) (close fd) (Becomes launching s (Closed s.descriptors fd)) := by
  refine Ensures.get_bind ?_
  rintro _ rfl
  simp only [hopen, if_true]
  refine Ensures.ofModify ?_
  rintro _ rfl
  exact ⟨.refl, rfl, rfl, rfl, rfl⟩

/-! ### Launching a pipeline -/

/-- A command is launched. -/
theorem launch_becomes {s : Shell σ} (command : Command) (input : Nat) (pipe : Option (Nat × Nat))
    {jobClass : JobClass} (hclass : ∀ a, a.jobClass = jobClass → launching a) :
    Ensures (· = s) (launch command input pipe jobClass)
      (Becomes launching s fun _ t => t.descriptors = s.descriptors) := by
  refine Ensures.get_bind ?_
  rintro t rfl
  exact supervise_becomes fun held => Supervisor.launch_comes held (a :=
    { command := command
      jobClass := jobClass
      input := input
      pipe := pipe
      descriptors := t.descriptors
      place := t.place }) (hclass _ rfl)

section Stages

variable {base : Descriptors} {input : Nat} {file : OpenFile}

/-- Closing what the last command was to read. -/
theorem closeLast_becomes (hfree : base.isOpen input = false) {s : Shell σ}
    (hs : s.descriptors = base.assign input file) :
    Ensures (· = s) (close input) (Becomes launching s fun _ t => t.descriptors = base) := by
  have hopen : s.descriptors.isOpen input = true := by rw [hs, Descriptors.isOpen_assign_self]
  refine (close_becomes hopen).post fun r t h => h.post fun ht => ?_
  cases r with
  | ok _ => exact ht.trans (by rw [hs, Descriptors.close_assign hfree])
  | error stop => exact ht.elim

/-- **Launching the commands of a pipeline.**  Before the next command the table is as it was
before the first one, but for the number from which the next command reads. -/
theorem spawnStages_becomes {commands : List Command} {jobClass : JobClass}
    (hclass : ∀ a, a.jobClass = jobClass → launching a) (hroom : commands.length ≤ 1 ∨ 3 ≤ base.room)
    (hfree : base.isOpen input = false) {s : Shell σ}
    (hs : s.descriptors = base.assign input file) :
    Ensures (· = s) (spawnStages jobClass input commands)
      (Becomes launching s fun _ t => t.descriptors = base) := by
  -- the table before each command is `base` and an input, which is another one each time
  induction commands generalizing input file s with
  | nil => exact closeLast_becomes hfree hs
  | cons command rest ih =>
      cases rest with
      | nil =>
          refine Becomes.bind (Becomes.releasing (Holding (base.assign input file) base)
            (launch_becomes command input none hclass) ?_ ?_) ?_ fun _ _ h => h
          · exact fun _ t ht => ht.trans hs
          · intro stop t ht
            exact ht ▸ hs ▸ Descriptors.close_assign hfree
          · exact fun _ _ ht => closeLast_becomes hfree ht
      | cons next rest =>
          -- room for the two ends of a pipe beside the input is all that a command needs
          have hroom' : 3 ≤ base.room := by simpa using hroom
          have hpipe : 2 ≤ s.descriptors.room := by
            rw [hs, Descriptors.room_assign_of_free hfree]
            omega
          refine Becomes.bind (Becomes.releasing (Connecting base input file)
            (makePipe_becomes hpipe) ?_ ?_) ?_ fun _ _ h => h
          · rintro ⟨reader, writer⟩ t ⟨pipe, hreader, hwriter, ht⟩
            rw [hs] at hreader hwriter ht
            exact ⟨pipe, hfree, hreader, hwriter, ht⟩
          · intro stop t (ht : t.descriptors = s.descriptors)
            exact ht ▸ hs ▸ Descriptors.close_assign hfree
          · rintro ⟨reader, writer⟩ t ⟨pipe, hconnected⟩
            refine Becomes.bind (Becomes.releasing (Holding t.descriptors base)
              (launch_becomes command input (some (reader, writer)) hclass) ?_ ?_) ?_ fun _ _ h => h
            · exact fun _ _ hu => hu
            · intro stop u (hu : u.descriptors = t.descriptors)
              exact hu ▸ hconnected.close_all
            · intro _ u (hu_descriptors : u.descriptors = t.descriptors)
              have hu : Descriptors.Connected base input file reader writer pipe u.descriptors :=
                hu_descriptors ▸ hconnected
              refine Becomes.bind (close_becomes hu.isOpen_input) ?_ fun _ _ h => h.elim
              intro _ v (hv : v.descriptors = u.descriptors.close input)
              refine Becomes.bind (close_becomes (hv ▸ hu.isOpen_writer)) ?_ fun _ _ h => h.elim
              intro _ w (hw : w.descriptors = v.descriptors.close writer)
              rw [hv, hu.close_writer] at hw
              exact ih (.inr hroom') hu.reader_base.2 hw

/-- How a pipeline leaves the shell: with the descriptors it had, and without a foreground job
after a foreground pipeline that comes to its end. -/
def Settled (p : Pipeline) (d : Descriptors) (r : Except Stop Unit) (t : Shell σ) : Prop :=
  t.descriptors = d ∧ (r = .ok ⟨⟩ → p.background = false → t.jobs.hasForeground = false)

/-- Waiting for the foreground. -/
theorem waitForeground_becomes {s : Shell σ} :
    Ensures (· = s) (supervise fun held => Supervisor.waitForeground held)
      (Becomes launching s fun r t =>
        t.descriptors = s.descriptors ∧ (r = .ok ⟨⟩ → t.jobs.hasForeground = false)) := by
  refine Ensures.supervise ?_
  rintro _ rfl
  exact (Supervisor.ensures_of_reaches (Supervisor.waitForeground_comes _)).post
    fun r v hv => ⟨hv.1, ⟨rfl, hv.2⟩, rfl, rfl, rfl⟩

/-- **Running a pipeline by children.**  The table is as before however it ends, and when a
foreground pipeline comes to its end no foreground job is left. -/
theorem runForked_becomes {p : Pipeline} {s : Shell σ} (hfile : s.descriptors.file? 0 = some file)
    (hroom : s.descriptors.room ≠ 0) (hroom' : p.commands.length ≤ 1 ∨ 3 ≤ s.descriptors.room) :
    Ensures (· = s) (runForked p) (Becomes (·.jobClass = p.jobClass) s (Settled p s.descriptors)) := by
  refine Becomes.bind (duplicate_becomes hfile hroom) ?_ fun stop t ht => ⟨ht, by simp⟩
  rintro input t ⟨hfree, ht⟩
  -- until the commands are launched there is one more descriptor than before
  have hreleasing : ∀ {α : Type} (body : Descriptors → Supervised σ α) (u : Shell σ),
      u.descriptors = s.descriptors.assign input file →
      (∀ held, Ensures (Reaches (·.jobClass = p.jobClass) u.toSupervisor) (body held)
        (Comes (·.jobClass = p.jobClass) u.toSupervisor)) →
      Ensures (· = u) (releasing [input] (supervise body)) (Becomes (·.jobClass = p.jobClass) u
        (Holding (s.descriptors.assign input file) s.descriptors)) := by
    intro α body u hu hbody
    refine Becomes.releasing _ (supervise_becomes hbody) ?_ ?_
    · exact fun _ v hv => hv.trans hu
    · exact fun stop v hv => hv ▸ hu ▸ Descriptors.close_assign hfree
  refine Becomes.bind (hreleasing _ t ht fun held => Supervisor.block_comes held) ?_
    fun stop u hu => ⟨hu, by simp⟩
  intro previous u hu
  refine Becomes.restoring ?_ fun r v signal hv => hv
  refine Becomes.bind (hreleasing _ u hu fun held => Supervisor.reapIfNotified_comes held) ?_
    fun stop v hv => ⟨hv, by simp⟩
  intro _ v hv
  have hstages : Ensures (· = v) (spawnStages p.jobClass input p.commands)
      (Becomes (·.jobClass = p.jobClass) v fun _ w => w.descriptors = s.descriptors) :=
    spawnStages_becomes (fun _ h => h) hroom' hfree hv
  refine Becomes.bind hstages ?_ fun stop w hw => ⟨hw, by simp⟩
  intro _ w hw
  by_cases hbackground : p.background = false
  · rw [if_pos hbackground]
    exact waitForeground_becomes.post fun r x hx => hx.post fun h => ⟨h.1.trans hw, fun hr _ => h.2 hr⟩
  · rw [if_neg hbackground]
    refine Ensures.ofPure ?_
    rintro _ rfl
    exact ⟨.refl, ⟨hw, fun _ h => absurd h hbackground⟩, rfl, rfl, rfl⟩

end Stages

/-! ### Builtin commands -/

/-- A computation that launches nothing and leaves the descriptors and the jobs alone. -/
structure Spares (s : Shell σ) (r : Except Stop α) (t : Shell σ) : Prop where
  comes : Comes (fun _ => False) s.toSupervisor r t.toSupervisor
  descriptors : t.descriptors = s.descriptors
  jobs : t.jobs = s.jobs

theorem Spares.bind {s : Shell σ} {x : ShellM σ β} {f : β → ShellM σ α}
    (hx : Ensures (· = s) x (Spares s)) (hf : ∀ b t, Ensures (· = t) (f b) (Spares t)) :
    Ensures (· = s) (x >>= f) (Spares s) := by
  refine Ensures.bind _ hx (fun b => Ensures.of_eq fun t ht => (hf b t).post ?_) ?_
  · intro r u hu
    exact ⟨Comes.of_reaches ht.comes hu.comes, hu.descriptors.trans ht.descriptors,
      hu.jobs.trans ht.jobs⟩
  · exact fun stop t ht => ⟨ht.comes, ht.descriptors, ht.jobs⟩

theorem Spares.ofPure {s : Shell σ} {a : α} : Ensures (· = s) (pure a : ShellM σ α) (Spares s) := by
  refine Ensures.ofPure ?_
  rintro _ rfl
  exact ⟨.refl, rfl, rfl⟩

theorem say_spares {s : Shell σ} (fd : Nat) (text : Bytes) :
    Ensures (· = s) (say fd text) (Spares s) := by
  refine Ensures.ofModify ?_
  rintro s rfl
  cases h : s.descriptors.file? fd with
  | none => exact ⟨.refl, rfl, rfl⟩
  | some file => exact ⟨Relation.ReflTransGen.single (.write file text s.toSupervisor), rfl, rfl⟩

omit [Host σ] in
/-- A signal that the shell sends to itself does no harm, or the shell does not go on. -/
theorem receive_ensures {s : Shell σ} (signal : Nat) :
    Ensures (· = s) (receive signal) fun r t =>
      match r with
      | .ok _ => ∃ c, t = { s with signal := c }
      | .error stop => t = s ∧ ∃ loss, Signal.loss? signal = some loss ∧ stop = .lost loss := by
  unfold receive
  by_cases hignored : signal = Signal.interrupt ∨ signal = Signal.pipe
  · rw [if_pos hignored]
    exact Ensures.ofPure fun t ht => ⟨t.signal, ht ▸ rfl⟩
  rw [if_neg hignored]
  by_cases hchild : signal = Signal.child
  · rw [if_pos hchild]
    exact Ensures.ofModify fun t ht => ⟨t.signal.raise, ht ▸ rfl⟩
  rw [if_neg hchild]
  have hminded : ¬ (signal = Signal.interrupt ∨ signal = Signal.pipe ∨ signal = Signal.child) := by
    rw [← or_assoc]
    exact fun h => h.elim hignored hchild
  cases hdefault : Signal.default signal with
  | ends =>
      have hloss : Signal.loss? signal = some (.killed signal) := by
        rw [Signal.loss?, if_neg hminded, hdefault]
      exact Ensures.ofThrow fun t ht => ⟨ht, _, hloss, rfl⟩
  | stops =>
      have hloss : Signal.loss? signal = some .stuck := by
        rw [Signal.loss?, if_neg hminded, hdefault]
      exact Ensures.ofThrow fun t ht => ⟨ht, _, hloss, rfl⟩
  | continues | nothing => exact Ensures.ofPure fun t ht => ⟨t.signal, ht ▸ rfl⟩

/-- What is planned for a builtin spares them. -/
theorem Planned.spares {s : Shell σ} {b : Builtin} {arguments : List Bytes} {deed : ShellM σ Unit}
    (h : Planned s arguments b deed) : Ensures (· = s) deed (Spares s) := by
  cases h with
  | exit _ | cd _ =>
      refine Ensures.ofModify ?_
      rintro s rfl
      exact ⟨.refl, rfl, rfl⟩
  | pwd path => exact say_spares 1 _
  | @kill signal pid self host _ hkill =>
      have hmove : Reaches (fun _ => False) s.toSupervisor { s.toSupervisor with host := host } :=
        Relation.ReflTransGen.single (.kill hkill)
      refine Ensures.modify_bind ?_
      rintro s rfl
      cases self with
      | false =>
          refine Ensures.ofPure ?_
          rintro _ rfl
          exact ⟨hmove, rfl, rfl⟩
      | true =>
          refine (receive_ensures signal).post ?_
          rintro (stop | _) t ht
          · obtain ⟨rfl, loss, hloss, rfl⟩ := ht
            exact ⟨Reaches.stop .refl (.struck hkill hloss), rfl, rfl⟩
          · obtain ⟨c, rfl⟩ := ht
            exact ⟨hmove.tail (.signal c _), rfl, rfl⟩

/-- **What a builtin does spares the children, the jobs and the descriptors.** -/
theorem callBuiltin_spares {s : Shell σ} (b : Builtin) (arguments : List Bytes) :
    Ensures (· = s) (callBuiltin b arguments) (Spares s) :=
  callBuiltin_ensures (fun _ => ⟨.refl, rfl, rfl⟩) fun _ hdeed =>
    Spares.bind hdeed.spares fun _ _ => Spares.ofPure

/-- Running a builtin. -/
theorem runBuiltin_spares {s : Shell σ} (b : Builtin) (command : Command) :
    Ensures (· = s) (runBuiltin b command) (Spares s) := by
  have hnote : Ensures (· = s)
      (supervise fun _ => Supervisor.note (.builtin command.name)) (Spares s) := by
    refine Ensures.supervise ?_
    rintro s rfl
    refine Ensures.ofModify ?_
    rintro _ rfl
    exact ⟨Relation.ReflTransGen.single (.builtin command.name s.toSupervisor), rfl, rfl⟩
  refine Spares.bind hnote fun _ t => Spares.bind (callBuiltin_spares b command.arguments) ?_
  rintro (e | _) u
  · exact say_spares 2 _
  · exact Spares.ofPure

end Shell

end JobShell
