/-
**Launching a pipeline.**

The shell launches a pipeline by making a pipe, starting a child, closing what only the child
needs, and so on.  Every step can fail, and then the shell gives up the rest.  However far it comes,
what it has done is a launch of the first stages on the machine, and its own table is as it was
before.

Main definitions:

* `JobShell.Shell.Passes` — a computation that starts no child;
* `JobShell.Shell.Starts` — a computation that starts one;
* `JobShell.Shell.Spawned` — a launch of stages.

Main results:

* `JobShell.Shell.launch_starts` — a launch starts a child unless the fork fails;
* `JobShell.Shell.spawnStages_spawned` — the commands of a pipeline;
* `JobShell.Shell.runForked_spawned` — a pipeline as a whole.
-/

import JobShell.Proofs.Shell
import JobShell.Proofs.Pipeline.Stages

set_option autoImplicit false

namespace JobShell

open Descriptors (Connected)
open Machine (Runs Launched HappensMany)
open Supervisor (forkedPids)

namespace Shell

variable {α β : Type} {s t : Shell Machine}

/-- A computation that starts at `s` starts no child, and ends with `after`. -/
structure Passes (s : Shell Machine) (after : Except Stop α → Shell Machine → Prop)
    (r : Except Stop α) (t : Shell Machine) : Prop where
  runs : Runs s.host t.host
  registered : t.toSupervisor.Registered
  forked : forkedPids t.journal = forkedPids s.journal
  after : after r t

/-! ### Computations that start no child -/

theorem Passes.of_becomes {after : Except Stop α → Shell Machine → Prop} {r : Except Stop α}
    (hs : s.toSupervisor.Registered) (h : Becomes (fun _ => False) s after r t) :
    Passes s after r t := by
  obtain ⟨hruns, hregistered⟩ := h.comes.happens hs
  exact ⟨hruns, hregistered, h.comes.forkedPids, h.after⟩

theorem Passes.post {mid after : Except Stop α → Shell Machine → Prop} {r : Except Stop α}
    (h : Passes s mid r t) (hafter : mid r t → after r t) : Passes s after r t :=
  ⟨h.runs, h.registered, h.forked, hafter h.after⟩

theorem Passes.bind {x : ShellM Machine β} {f : β → ShellM Machine α}
    {mid : Except Stop β → Shell Machine → Prop} {after : Except Stop α → Shell Machine → Prop}
    (hx : Ensures (· = s) x (Passes s mid))
    (hf : ∀ b t, t.toSupervisor.Registered → mid (.ok b) t →
      Ensures (· = t) (f b) (Passes t after))
    (herror : ∀ stop t, mid (.error stop) t → after (.error stop) t) :
    Ensures (· = s) (x >>= f) (Passes s after) := by
  refine Ensures.bind _ hx (fun b => Ensures.of_eq fun t ht => ?_) ?_
  · refine (hf b t ht.registered ht.after).post fun r u hu => ?_
    exact ⟨ht.runs.trans hu.runs, hu.registered, hu.forked.trans ht.forked, hu.after⟩
  · exact fun stop t ht => ⟨ht.runs, ht.registered, ht.forked, herror stop t ht.after⟩

theorem Passes.releasing {fds : List Nat} {body : ShellM Machine α}
    {mid : Except Stop α → Shell Machine → Prop} (after : Except Stop α → Shell Machine → Prop)
    (h : Ensures (· = s) body (Passes s mid)) (hok : ∀ a t, mid (.ok a) t → after (.ok a) t)
    (herror : ∀ stop t, mid (.error stop) t →
      after (.error stop) { t with descriptors := fds.foldl Descriptors.close t.descriptors }) :
    Ensures (· = s) (releasing fds body) (Passes s after) := by
  refine Ensures.releasing h ?_ ?_
  · exact fun a t ht => ht.post fun h => hok a t h
  · exact fun stop t ht => ⟨ht.runs, ht.registered, ht.forked, herror stop t ht.after⟩

/-- What the supervisor does without launching leaves the descriptors alone. -/
theorem supervise_passes {body : Descriptors → Supervised Machine α}
    (hs : s.toSupervisor.Registered)
    (h : ∀ held, Ensures (Supervisor.Reaches (fun _ => False) s.toSupervisor) (body held)
      (Supervisor.Comes (fun _ => False) s.toSupervisor)) :
    Ensures (· = s) (supervise body) (Passes s fun _ t => t.descriptors = s.descriptors) :=
  (supervise_becomes h).post fun _ _ ht => .of_becomes hs ht

theorem duplicate_passes {fd : Nat} {file : OpenFile} (hs : s.toSupervisor.Registered)
    (hfile : s.descriptors.file? fd = some file) :
    Ensures (· = s) (duplicate fd) (Passes s (Assigned s.descriptors file)) := by
  refine Passes.bind (supervise_passes hs fun held => Supervisor.enterCall_comes held .dup) ?_
    fun _ _ h => h
  intro _ t ht hdescriptors
  refine Ensures.get_bind ?_
  rintro t rfl
  have hfile' : t.descriptors.file? fd = some file := by rw [hdescriptors]; exact hfile
  simp only [hfile']
  cases hallocate : t.descriptors.allocate? file 0 with
  | none =>
      refine Ensures.ofThrow ?_
      rintro _ rfl
      exact ⟨.refl, ht, rfl, hdescriptors⟩
  | some result =>
      obtain ⟨new, d⟩ := result
      obtain ⟨-, rfl, rfl⟩ := Descriptors.allocate?_eq_some_iff.1 hallocate
      refine Ensures.modify_bind ?_
      rintro _ rfl
      refine Ensures.ofPure ?_
      rintro _ rfl
      rw [← hdescriptors]
      exact ⟨.refl, ht, rfl, Descriptors.leastFree_free _ 0, rfl⟩

/-- A pipe has been made and given two numbers that were free, unless that failed. -/
def Made (s : Shell Machine) : Except Stop (Nat × Nat) → Shell Machine → Prop
  | .ok (reader, writer), t =>
      ∃ m, Runs s.host m ∧ t.host = m.addPipe.2 ∧ s.descriptors.isOpen reader = false ∧
        (s.descriptors.assign reader (.pipeReader m.pipes.length)).isOpen writer = false ∧
        t.descriptors = (s.descriptors.assign reader (.pipeReader m.pipes.length)).assign writer
          (.pipeWriter m.pipes.length)
  | .error _, t => t.descriptors = s.descriptors

theorem makePipe_passes (hs : s.toSupervisor.Registered) :
    Ensures (· = s) makePipe (Passes s (Made s)) := by
  refine Ensures.bind _
    (supervise_passes hs fun held => Supervisor.enterCall_comes held .pipe) ?_
    fun stop t ht => ⟨ht.runs, ht.registered, ht.forked, ht.after⟩
  refine fun _ => Ensures.get_bind fun t ht => ?_
  have hdescriptors : t.descriptors = s.descriptors := ht.after
  by_cases hroom : t.descriptors.room < 2
  · rw [if_pos hroom]
    refine Ensures.throw_bind ?_
    rintro _ rfl
    exact ⟨ht.runs, ht.registered, ht.forked, hdescriptors⟩
  · rw [if_neg hroom]
    refine Ensures.set_bind fun _ _ => Ensures.ofPure ?_
    rintro _ rfl
    have hruns : Runs t.host t.host.addPipe.2 := .single .pipe
    refine ⟨ht.runs.trans hruns, ht.registered.of_happens hruns fun c hc => ⟨c, hc, rfl⟩,
      ht.forked, t.host, ht.runs, rfl, ?_⟩
    rw [← hdescriptors]
    exact ⟨Descriptors.leastFree_free _ 0, Descriptors.leastFree_free _ 0, rfl⟩

theorem close_passes {fd : Nat} (hs : s.toSupervisor.Registered)
    (hopen : s.descriptors.isOpen fd = true) :
    Ensures (· = s) (close fd) (Passes s (Closed s.descriptors fd)) :=
  (close_becomes hopen).post fun _ _ ht => .of_becomes hs ht

/-! ### Launching the stages -/

/-- One child has been started, with an assignment. -/
structure Starts (s : Shell Machine) (a : Assignment) (m : Machine) (t : Shell Machine) : Prop where
  runs : Runs s.host m
  host : t.host = m.start m.nextPid a
  registered : t.toSupervisor.Registered
  forked : forkedPids t.journal = forkedPids s.journal ++ [m.nextPid]
  descriptors : t.descriptors = s.descriptors

/-- A launch starts a child, unless the fork fails.  If the child cannot be listed it is there all
the same. -/
theorem launch_starts {command : Command} {input : Nat} {pipe : Option (Nat × Nat)}
    {jobClass : JobClass} {a : Assignment} (hs : s.toSupervisor.Registered)
    (ha : a = { command := command, jobClass := jobClass, input := input, pipe := pipe,
                descriptors := s.descriptors, place := s.place }) :
    Ensures (· = s) (launch command input pipe jobClass) fun r t =>
      (∃ m, Starts s a m t) ∨
        (∃ stop, r = .error stop) ∧ Passes s (fun _ t => t.descriptors = s.descriptors) r t := by
  refine Ensures.get_bind ?_
  rintro s rfl
  rw [← ha]
  refine Ensures.supervise ?_
  rintro s rfl
  have hfork := Supervisor.fork_ensures s.descriptors (fun _ => False) s.toSupervisor a
  have hfork' : Ensures (· = s.toSupervisor) (Supervisor.fork s.descriptors a) _ :=
    hfork.pre fun t ht => ht ▸ .refl
  -- the shell that is left may differ in its jobs, which are noted after the fork
  have hstarts : ∀ u : Supervisor Machine, Supervisor.Reaches (fun _ => False) s.toSupervisor u →
      ∀ v : Supervisor Machine, v.host = (u.forked a).host → v.children = (u.forked a).children →
        v.journal = (u.forked a).journal →
          Starts s a u.host { s with toSupervisor := v } := by
    intro u hu v hhost hchildren hjournal
    obtain ⟨hruns, hregistered⟩ := Supervisor.Reaches.happens hu hs
    have hpid := Supervisor.choosePid_eq hregistered
    have hforked := hregistered.forked a
    refine ⟨hruns, ?_, ⟨?_, ?_, ?_⟩, ?_, rfl⟩
    · rw [hhost, ← hpid]
      rfl
    · rw [hhost]
      exact hforked.positive
    · rw [hhost, hchildren]
      exact hforked.children
    · rw [hhost]
      exact hforked.numbered
    · have hreaches : Supervisor.Comes (fun _ => False) s.toSupervisor (.ok ⟨⟩ : Except Stop Unit) u :=
        hu
      change forkedPids v.journal = _
      rw [hjournal]
      change forkedPids (u.journal ++ [.forked u.choosePid a.jobClass]) = _
      rw [Supervisor.forkedPids_append, hreaches.forkedPids, hpid]
      rfl
  refine Ensures.bind _ hfork' (fun pid => Ensures.of_eq ?_) ?_
  · rintro _ ⟨u, hu, rfl, rfl⟩
    refine Ensures.get_bind ?_
    rintro _ rfl
    -- the job is listed by now or refused, and the child is there either way
    cases hregister : (u.forked a).jobs.register u.choosePid jobClass with
    | none => exact Ensures.ofThrow fun v hv => .inl ⟨_, hstarts u hu v (hv ▸ rfl) (hv ▸ rfl) (hv ▸ rfl)⟩
    | some jobs => exact Ensures.ofSet fun _ _ => .inl ⟨_, hstarts u hu _ rfl rfl rfl⟩
  · intro stop v hv
    obtain ⟨hruns, hregistered⟩ := Supervisor.Comes.happens hv hs
    exact .inr ⟨⟨stop, rfl⟩, hruns, hregistered, Supervisor.Comes.forkedPids hv, rfl⟩

/-- What a launch of the stages comes to. -/
structure Spawned (base : Descriptors) (out source : OpenFile) (commands : List Command)
    (s : Shell Machine) (stages : List Stage) (m : Machine) (r : Except Stop Unit)
    (t : Shell Machine) : Prop where
  launched : Launched base out source commands s.host stages m
  runs : Runs m t.host
  registered : t.toSupervisor.Registered
  forked : forkedPids t.journal = forkedPids s.journal ++ stages.map (·.pid)
  descriptors : t.descriptors = base
  complete : r = .ok ⟨⟩ → stages.length = commands.length

section Stages

variable {base : Descriptors} {out source : OpenFile} {commands : List Command}

/-- Nothing has been started. -/
theorem Spawned.none {stop : Stop} (hruns : Runs s.host t.host)
    (hregistered : t.toSupervisor.Registered)
    (hforked : forkedPids t.journal = forkedPids s.journal) (hdescriptors : t.descriptors = base) :
    Spawned base out source commands s [] s.host (.error stop) t :=
  ⟨.nil source commands s.host, hruns, hregistered, by simp [hforked], hdescriptors, by simp⟩

/-- Before the first stage the machine may go on. -/
theorem Spawned.of_runs {stages : List Stage} {m : Machine} {r : Except Stop Unit}
    {u : Shell Machine} (h : Spawned base out source commands t stages m r u)
    (hruns : Runs s.host t.host) (hforked : forkedPids t.journal = forkedPids s.journal) :
    ∃ m', Spawned base out source commands s stages m' r u := by
  have hforked' : forkedPids u.journal = forkedPids s.journal ++ stages.map (·.pid) := by
    rw [h.forked, hforked]
  have hlaunched := h.launched
  generalize hhost : t.host = host at hlaunched hruns
  cases hlaunched with
  | nil =>
      exact ⟨s.host, .nil _ _ _, hruns.trans h.runs, h.registered, hforked',
        h.descriptors, h.complete⟩
  | last h₁ ha hnone =>
      exact ⟨_, .last (hruns.trans h₁) ha hnone, h.runs, h.registered, hforked', h.descriptors,
        h.complete⟩
  | cons h₁ h₂ ha hrest =>
      exact ⟨_, .cons (hruns.trans h₁) h₂ ha hrest, h.runs, h.registered, hforked', h.descriptors,
        h.complete⟩

/-- A pipe has been made for a command, when the machine was `m₁`. -/
structure Furnished (base : Descriptors) (source : OpenFile) (input reader writer : Nat)
    (s : Shell Machine) (m₁ : Machine) (t : Shell Machine) : Prop where
  runs : Runs s.host m₁
  host : t.host = m₁.addPipe.2
  registered : t.toSupervisor.Registered
  forked : forkedPids t.journal = forkedPids s.journal
  connected : Connected base input source reader writer m₁.pipes.length t.descriptors

/-- A stage that writes a pipe has been started. -/
structure Begun (base : Descriptors) (source : OpenFile) (command : Command)
    (s : Shell Machine) (m₁ m₂ : Machine) (a : Assignment) (t : Shell Machine) : Prop where
  before : Runs s.host m₁
  between : Runs m₁.addPipe.2 m₂
  seated : a.Seated base source (.pipeWriter m₁.pipes.length)
  command : a.command = command
  host : t.host = m₂.start m₂.nextPid a
  registered : t.toSupervisor.Registered
  forked : forkedPids t.journal = forkedPids s.journal ++ [m₂.nextPid]

/-- After a stage come the other ones. -/
theorem Begun.spawned {command next : Command} {rest : List Command} {m₁ m₂ m' : Machine}
    {a : Assignment} {stages : List Stage} {r : Except Stop Unit} {u : Shell Machine}
    (h : Begun base source command s m₁ m₂ a t)
    (hrest : Spawned base out (.pipeReader m₁.pipes.length) (next :: rest) t stages m' r u) :
    Spawned base out source (command :: next :: rest) s
      (⟨m₂.nextPid, command, source, some m₁.pipes.length⟩ :: stages) m' r u := by
  refine ⟨?_, hrest.runs, hrest.registered, ?_, hrest.descriptors, ?_⟩
  · have hlaunched := hrest.launched
    rw [h.host] at hlaunched
    rw [← h.command]
    exact .cons h.before h.between h.seated hlaunched
  · rw [hrest.forked, h.forked]
    simp
  · intro hr
    simp [hrest.complete hr]

/-- The last command of a pipeline. -/
theorem spawnLast_spawned {command : Command} {jobClass : JobClass} {input : Nat}
    (hs : s.toSupervisor.Registered) (hout : base.file? 1 = some out)
    (hfree : base.isOpen input = false) (hdescriptors : s.descriptors = base.assign input source) :
    Ensures (· = s) (spawnStages jobClass input [command]) fun r t =>
      ∃ stages m, Spawned base out source [command] s stages m r t := by
  obtain ⟨a, ha⟩ : ∃ a : Assignment, a =
      { command := command, jobClass := jobClass, input := input, pipe := none,
        descriptors := s.descriptors, place := s.place } := ⟨_, rfl⟩
  have hseated : a.Seated base source out :=
    .last (by rw [ha]) (by rw [ha]; exact hfree) (by rw [ha]; exact hdescriptors) hout
  have hcommand : a.command = command := by rw [ha]
  -- whether the launch ends well or not, a child that is there is the only stage
  have hspawned : ∀ {m : Machine} {t u : Shell Machine} (r : Except Stop Unit), Starts s a m t →
      Runs t.host u.host → u.toSupervisor.Registered → forkedPids u.journal = forkedPids t.journal →
        u.descriptors = base → ∃ stages m', Spawned base out source [command] s stages m' r u := by
    intro m t u r ht hruns hregistered hforked hbase
    refine ⟨[⟨m.nextPid, command, source, none⟩], m.start m.nextPid a, ?_, ?_, hregistered, ?_,
      hbase, fun _ => rfl⟩
    · rw [← hcommand]
      exact .last ht.runs hseated (by rw [ha])
    · rw [← ht.host]
      exact hruns
    · rw [hforked, ht.forked]
      rfl
  have hclosed : ∀ u : Shell Machine, u.descriptors = s.descriptors →
      u.descriptors.close input = base := by
    intro u hu
    rw [hu, hdescriptors, Descriptors.close_assign hfree]
  refine Ensures.bind (OkOr (fun _ t => ∃ m, Starts s a m t)
    fun stop t => ∃ stages m, Spawned base out source [command] s stages m (.error stop) t)
    (Ensures.releasing (launch_starts hs ha) ?_ ?_) ?_ fun _ _ h => h
  · rintro _ t (hstarts | ⟨⟨stop, hstop⟩, -⟩)
    · exact hstarts
    · cases hstop
  · rintro stop t (⟨m, ht⟩ | ⟨-, ht⟩)
    · exact hspawned _ ht .refl ht.registered rfl (hclosed t ht.descriptors)
    · exact ⟨[], s.host, .none ht.runs ht.registered ht.forked (hclosed t ht.after)⟩
  · refine fun _ => Ensures.of_eq ?_
    rintro t ⟨m, ht⟩
    have hopen : t.descriptors.isOpen input = true := by
      rw [ht.descriptors, hdescriptors, Descriptors.isOpen_assign_self]
    refine (close_passes ht.registered hopen).post ?_
    rintro (stop | _) u hu
    · exact hu.after.elim
    · refine hspawned _ ht hu.runs hu.registered hu.forked ?_
      have hclose : u.descriptors = t.descriptors.close input := hu.after
      rw [hclose]
      exact hclosed t ht.descriptors

/-- A command whose pipe has been made is launched, and what only it needs is closed. -/
theorem launchWriter_begun {command next : Command} {rest : List Command} {jobClass : JobClass}
    {input reader writer : Nat} {m₁ : Machine}
    (h : Furnished base source input reader writer s m₁ t) :
    Ensures (· = t) (releasing [input, reader, writer]
        (launch command input (some (reader, writer)) jobClass))
      (OkOr
        (fun _ u => ∃ m₂ a, Begun base source command s m₁ m₂ a u ∧ u.descriptors = t.descriptors)
        fun stop u => ∃ stages m,
          Spawned base out source (command :: next :: rest) s stages m (.error stop) u) := by
  obtain ⟨a, ha⟩ : ∃ a : Assignment, a =
      { command := command, jobClass := jobClass, input := input, pipe := some (reader, writer),
        descriptors := t.descriptors, place := t.place } := ⟨_, rfl⟩
  have hseated : a.Seated base source (.pipeWriter m₁.pipes.length) :=
    .writer (by rw [ha]) (by rw [ha]; exact h.connected) rfl
  have hbegun : ∀ {m₂ : Machine} {u : Shell Machine}, Starts t a m₂ u →
      Begun base source command s m₁ m₂ a u := fun {m₂ u} hu =>
    ⟨h.runs, h.host ▸ hu.runs, hseated, by rw [ha], hu.host, hu.registered,
      by rw [hu.forked, h.forked]⟩
  refine Ensures.releasing (launch_starts h.registered ha) ?_ ?_
  · rintro _ u (⟨m₂, hu⟩ | ⟨⟨stop, hstop⟩, -⟩)
    · exact ⟨m₂, a, hbegun hu, hu.descriptors⟩
    · cases hstop
  · rintro stop u (⟨m₂, hu⟩ | ⟨-, hu⟩)
    · have hclosed : [input, reader, writer].foldl Descriptors.close u.descriptors = base := by
        rw [hu.descriptors]
        exact h.connected.close_all
      -- the stage is there, and no other will come
      exact ⟨_, _, (hbegun hu).spawned ⟨.nil _ _ _, .refl, hu.registered, by simp, hclosed, by simp⟩⟩
    · refine ⟨[], s.host, .none ?_ hu.registered (hu.forked.trans h.forked) ?_⟩
      · have hpipe : Runs m₁ t.host := h.host ▸ m₁.runs_addPipe
        exact (h.runs.trans hpipe).trans hu.runs
      · change [input, reader, writer].foldl Descriptors.close u.descriptors = base
        rw [hu.after]
        exact h.connected.close_all

/-- **The shell's part of a launch.**  However it ends, the stages that have been started are those
of a launch, and the table of the shell is as it was. -/
theorem spawnStages_spawned {jobClass : JobClass} {input : Nat} (hs : s.toSupervisor.Registered)
    (hout : base.file? 1 = some out) (hfree : base.isOpen input = false)
    (hdescriptors : s.descriptors = base.assign input source) :
    Ensures (· = s) (spawnStages jobClass input commands) fun r t =>
      ∃ stages m, Spawned base out source commands s stages m r t := by
  -- each command takes the input that the one before has left, so the induction is over all inputs
  induction commands generalizing s input source with
  | nil =>
      have hopen : s.descriptors.isOpen input = true := by
        rw [hdescriptors, Descriptors.isOpen_assign_self]
      refine (close_passes hs hopen).post ?_
      rintro (stop | _) t ht
      · exact ht.after.elim
      · refine ⟨[], s.host, .nil _ _ _, ht.runs, ht.registered, by simp [ht.forked], ?_, fun _ => rfl⟩
        have hclose : t.descriptors = s.descriptors.close input := ht.after
        rw [hclose, hdescriptors, Descriptors.close_assign hfree]
  | cons command rest ih =>
      cases rest with
      | nil => exact spawnLast_spawned hs hout hfree hdescriptors
      | cons next rest =>
          have hreleased : ∀ t : Shell Machine, t.descriptors = s.descriptors →
              [input].foldl Descriptors.close t.descriptors = base := by
            intro t ht
            rw [ht, hdescriptors]
            exact Descriptors.close_assign hfree
          refine Ensures.bind (OkOr
            (fun ends t => ∃ m₁, Furnished base source input ends.1 ends.2 s m₁ t)
            fun stop t => ∃ stages m,
              Spawned base out source (command :: next :: rest) s stages m (.error stop) t)
            (Ensures.releasing (makePipe_passes hs) ?_ ?_) ?_ fun _ _ h => h
          · rintro ⟨reader, writer⟩ t ht
            obtain ⟨m₁, hruns, hhost, hreader, hwriter, ht_descriptors⟩ := ht.after
            rw [hdescriptors] at hreader hwriter ht_descriptors
            exact ⟨m₁, hruns, hhost, ht.registered, ht.forked,
              ⟨hfree, hreader, hwriter, ht_descriptors⟩⟩
          · -- no pipe: nobody has been started, and the input is given back
            exact fun stop t ht =>
              ⟨[], s.host, .none ht.runs ht.registered ht.forked (hreleased t ht.after)⟩
          · rintro ⟨reader, writer⟩
            refine Ensures.of_eq ?_
            rintro t ⟨m₁, ht⟩
            -- from here on the command has its child, and what follows is that of the rest
            refine Ensures.bind _ (launchWriter_begun ht) ?_ fun _ _ h => h
            refine fun _ => Ensures.of_eq ?_
            rintro u ⟨m₂, a, hbegun, hu⟩
            have hconnected := ht.connected
            rw [← hu] at hconnected
            have hopen_writer := hconnected.isOpen_writer
            refine Ensures.bind _ (close_passes hbegun.registered hconnected.isOpen_input) ?_
              fun _ _ h => h.after.elim
            refine fun _ => Ensures.of_eq fun v hv => ?_
            have hv_descriptors : v.descriptors = u.descriptors.close input := hv.after
            rw [← hv_descriptors] at hopen_writer
            refine Ensures.bind _ (close_passes hv.registered hopen_writer) ?_
              fun _ _ h => h.after.elim
            refine fun _ => Ensures.of_eq fun w hw => ?_
            have hw_descriptors : w.descriptors = v.descriptors.close writer := hw.after
            rw [hv_descriptors, hconnected.close_writer] at hw_descriptors
            refine (ih hw.registered hconnected.reader_base.2 hw_descriptors).post ?_
            rintro r x ⟨stages, m, hx⟩
            obtain ⟨m', hx'⟩ := hx.of_runs (hv.runs.trans hw.runs) (hw.forked.trans hv.forked)
            exact ⟨_, _, hbegun.spawned hx'⟩

theorem Spawned.then_passes {stages : List Stage} {m : Machine} {r r' : Except Stop Unit}
    {after : Except Stop α → Shell Machine → Prop} {q : Except Stop α} {u : Shell Machine}
    (h : Spawned base out source commands s stages m r t) (hu : Passes t after q u)
    (hdescriptors : u.descriptors = t.descriptors) (hr : r' = .ok ⟨⟩ → r = .ok ⟨⟩) :
    Spawned base out source commands s stages m r' u :=
  ⟨h.launched, h.runs.trans hu.runs, hu.registered, hu.forked.trans h.forked,
    hdescriptors.trans h.descriptors, fun h' => h.complete (hr h')⟩

/-- **Running a pipeline by children** comes to a launch of its stages and to what happens
afterwards. -/
theorem runForked_spawned {p : Pipeline} (hs : s.toSupervisor.Registered)
    (hsource : s.descriptors.file? 0 = some source) (hout : s.descriptors.file? 1 = some out) :
    Ensures (· = s) (runForked p) fun r t =>
      ∃ stages m, Spawned s.descriptors out source p.commands s stages m r t := by
  refine Ensures.bind _ (duplicate_passes hs hsource) ?_ fun stop t ht =>
    ⟨[], s.host, .none ht.runs ht.registered ht.forked ht.after⟩
  refine fun input => Ensures.of_eq fun t ht => ?_
  obtain ⟨hfree, ht_descriptors⟩ := ht.after
  -- until the commands are launched there is one more descriptor than before
  have hreleasing : ∀ {α : Type} (body : Descriptors → Supervised Machine α) (u : Shell Machine),
      u.toSupervisor.Registered → u.descriptors = s.descriptors.assign input source →
      (∀ held, Ensures (Supervisor.Reaches (fun _ => False) u.toSupervisor) (body held)
        (Supervisor.Comes (fun _ => False) u.toSupervisor)) →
      Ensures (· = u) (releasing [input] (supervise body))
        (Passes u (Holding (s.descriptors.assign input source) s.descriptors)) := by
    intro α body u hu hu_descriptors hbody
    refine Passes.releasing _ (supervise_passes hu hbody) ?_ ?_
    · exact fun _ v hv => hv.trans hu_descriptors
    · exact fun stop v hv => hv ▸ hu_descriptors ▸ Descriptors.close_assign hfree
  refine Ensures.bind _ (hreleasing _ t ht.registered ht_descriptors fun held =>
    Supervisor.block_comes held) ?_ fun stop u hu =>
      ⟨[], s.host, .none (ht.runs.trans hu.runs) hu.registered (hu.forked.trans ht.forked) hu.after⟩
  refine fun previous => Ensures.of_eq fun u hu => Ensures.restoring ?_
  have hrestored : ∀ {r : Except Stop Unit} {v : Shell Machine},
      (∃ stages m, Spawned s.descriptors out source p.commands s stages m r v) →
        ∃ stages m, Spawned s.descriptors out source p.commands s stages m r
          { v with signal := v.signal.restore previous } := by
    rintro r v ⟨stages, m, hv⟩
    exact ⟨stages, m, hv.launched, hv.runs, ⟨hv.registered.positive, hv.registered.children,
      hv.registered.numbered⟩, hv.forked, hv.descriptors, hv.complete⟩
  refine Ensures.post ?_ fun r v => hrestored
  have hu_runs : Runs s.host u.host := ht.runs.trans hu.runs
  have hu_forked : forkedPids u.journal = forkedPids s.journal := hu.forked.trans ht.forked
  refine Ensures.bind _ (hreleasing _ u hu.registered hu.after fun held =>
    Supervisor.reapIfNotified_comes held) ?_ fun stop v hv =>
      ⟨[], s.host, .none (hu_runs.trans hv.runs) hv.registered (hv.forked.trans hu_forked) hv.after⟩
  refine fun _ => Ensures.of_eq fun v hv => ?_
  refine Ensures.bind (fun r w => ∃ stages m,
      Spawned s.descriptors out source p.commands s stages m r w)
    ((spawnStages_spawned hv.registered hout hfree hv.after).post ?_) ?_ fun _ _ h => h
  · rintro r w ⟨stages, m, hw⟩
    obtain ⟨m', hw'⟩ := hw.of_runs (hu_runs.trans hv.runs) (hv.forked.trans hu_forked)
    exact ⟨stages, m', hw'⟩
  · refine fun _ => Ensures.of_eq ?_
    rintro w ⟨stages, m, hw⟩
    by_cases hbackground : p.background = false
    · rw [if_pos hbackground]
      have hwait : Ensures (· = w) (supervise fun held => Supervisor.waitForeground held)
          (Becomes (fun _ => False) w fun r t => t.descriptors = w.descriptors ∧
            (r = .ok ⟨⟩ → t.jobs.hasForeground = false)) := waitForeground_becomes
      refine hwait.post fun r x hx => ⟨stages, m, ?_⟩
      exact hw.then_passes (.of_becomes hw.registered hx) hx.after.1 fun _ => rfl
    · rw [if_neg hbackground]
      refine Ensures.ofPure ?_
      rintro _ rfl
      exact ⟨stages, m, hw⟩

end Stages

end Shell

end JobShell
