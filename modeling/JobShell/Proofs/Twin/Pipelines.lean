/-
**Pipelines on twin hosts.**

Two shells are beside each other if they differ only in their hosts, which are twins, and in their
tables.  A shell that keeps one more descriptor to itself than another is beside it, and so are the
two when both have launched the same commands: what one opens and closes the other opens and closes,
though under other numbers.  So a line does the same in both.

Main definitions:

* `JobShell.Shell.Beside` — shells that differ in their hosts and in their tables only;
* `JobShell.Shell.Together` — the same outcome twice.

Main results:

* `JobShell.Shell.spawnStages_together`, `JobShell.Shell.runForked_together` — launching commands;
* `JobShell.Shell.callBuiltin_together` — what a builtin does;
* `JobShell.Shell.runLine_together` — **a line does the same beside the other shell.**
-/

import JobShell.Proofs.Twin.Supervision

set_option autoImplicit false

namespace JobShell

open Supervisor (Same Agree)

namespace Shell

variable {σ : Type} {like : σ → σ → Prop} {d e : Descriptors} {s t : Shell σ} {α β : Type}

/-! ### Two shells -/

/-- Two shells with tables `d` and `e` that differ in their hosts and in their tables only. -/
inductive Beside (like : σ → σ → Prop) (d e : Descriptors) : Shell σ → Shell σ → Prop where
  | intro {host : σ} {s : Shell σ} : s.descriptors = d → like s.host host →
      Beside like d e s { s with host := host, descriptors := e }

/-- The same outcome twice; whether there is a result or not, the tables are `d` and `e`. -/
abbrev Together (like : σ → σ → Prop) (d e : Descriptors) :
    Except Stop α × Shell σ → Except Stop α × Shell σ → Prop :=
  Abreast (fun a s b t => b = a ∧ Beside like d e s t) (Beside like d e)

theorem Beside.same (h : Beside like d e s t) : Same like s.toSupervisor t.toSupervisor := by
  cases h with
  | intro hd h => exact .intro h

theorem Beside.left (h : Beside like d e s t) : s.descriptors = d := by
  cases h with
  | intro hd h => exact hd

theorem Beside.right (h : Beside like d e s t) : t.descriptors = e := by
  cases h with
  | intro hd h => rfl

/-- The supervisors go on. -/
theorem Beside.supervised (h : Beside like d e s t) {v w : Supervisor σ} (hvw : Same like v w) :
    Beside like d e { s with toSupervisor := v } { t with toSupervisor := w } := by
  cases h with
  | @intro host s hd h =>
      cases hvw with
      | @intro host' v h' =>
          exact .intro (s := { s with toSupervisor := v }) hd h'

/-- The tables change. -/
theorem Beside.tables (h : Beside like d e s t) (d' e' : Descriptors) :
    Beside like d' e' { s with descriptors := d' } { t with descriptors := e' } := by
  cases h with
  | @intro host s hd h => exact .intro (s := { s with descriptors := d' }) rfl h

/-- The signal changes. -/
theorem Beside.signal (h : Beside like d e s t) (change : ChildSignal → ChildSignal) :
    Beside like d e { s with signal := change s.signal } { t with signal := change t.signal } := by
  cases h with
  | @intro host s hd h => exact .intro (s := { s with signal := change s.signal }) hd h

theorem Together.bind {x y : ShellM σ β} {f g : β → ShellM σ α} {d' e' : Descriptors}
    (hx : Abreast (fun a s b t => b = a ∧ Beside like d' e' s t) (Beside like d e) (x.run s)
      (y.run t))
    (hf : ∀ b s t, Beside like d' e' s t → Together like d e ((f b).run s) ((g b).run t)) :
    Together like d e ((x >>= f).run s) ((y >>= g).run t) := by
  refine Abreast.bind hx ?_
  rintro b s _ t ⟨rfl, h⟩
  exact hf _ s t h

theorem Together.ofPure (a : α) (h : Beside like d e s t) :
    Together like d e ((pure a : ShellM σ α).run s) ((pure a : ShellM σ α).run t) :=
  .ok ⟨rfl, h⟩

theorem supervise_together {x y : Descriptors → Supervised σ α} (h : Beside like d e s t)
    (hxy : ∀ v w, Same like v w → Agree like ((x d).run v) ((y e).run w)) :
    Together like d e ((supervise x).run s) ((supervise y).run t) := by
  have hagree := hxy _ _ h.same
  rw [← h.left, ← h.right] at hagree
  unfold supervise
  rw [ExceptT.run_mk, ExceptT.run_mk]
  generalize (x s.descriptors).run s.toSupervisor = o at hagree ⊢
  generalize (y t.descriptors).run t.toSupervisor = p at hagree ⊢
  cases hagree with
  | ok hok => exact .ok ⟨hok.1, h.supervised hok.2⟩
  | stop hstop => exact .stop (h.supervised hstop)

/-- What is opened in both is closed if the computations stop early. -/
theorem releasing_together {x y : ShellM σ α} {fds gds : List Nat} {d' e' : Descriptors}
    {Q : α → Shell σ → α → Shell σ → Prop}
    (hd : fds.foldl Descriptors.close d' = d) (he : gds.foldl Descriptors.close e' = e)
    (h : Abreast Q (Beside like d' e') (x.run s) (y.run t)) :
    Abreast Q (Beside like d e) ((releasing fds x).run s) ((releasing gds y).run t) := by
  refine Abreast.releasing h ?_
  intro s t h
  have htables := h.tables d e
  rw [h.left, h.right, hd, he]
  exact htables

theorem close_together {fd gd : Nat} {E : Shell σ → Shell σ → Prop} (hd : d.isOpen fd = true)
    (he : e.isOpen gd = true) (h : Beside like d e s t) :
    Abreast (fun _ s _ t => Beside like (d.close fd) (e.close gd) s t) E
      ((close fd : ShellM σ Unit).run s) ((close gd).run t) := by
  refine Abreast.get_bind ?_
  rw [h.left, h.right, if_pos hd, if_pos he]
  exact .ok (h.tables _ _)

/-- Closing what the last command was to read. -/
theorem closeLast_together {base base' : Descriptors} {file : OpenFile} {input input' : Nat}
    (hfree : base.isOpen input = false) (hfree' : base'.isOpen input' = false)
    (h : Beside like (base.assign input file) (base'.assign input' file) s t) :
    Together like base base' ((close input : ShellM σ Unit).run s) ((close input').run t) := by
  refine Abreast.mono
    (close_together Descriptors.isOpen_assign_self Descriptors.isOpen_assign_self h) ?_ fun _ _ => id
  intro _ s _ t h
  rw [Descriptors.close_assign hfree, Descriptors.close_assign hfree'] at h
  exact ⟨rfl, h⟩

section Hosts

variable [Host σ] (htwins : Twins like) (halike : d.Alike e)

include htwins

/-! ### Descriptors -/

include halike

theorem say_together {fd : Nat} (hfd : fd < 3) (text : Bytes) (h : Beside like d e s t) :
    Together like d e ((say fd text : ShellM σ Unit).run s) ((say fd text).run t) := by
  have hfile : t.descriptors.file? fd = s.descriptors.file? fd := by
    rw [h.left, h.right, halike.standard fd hfd]
  refine .ok ⟨rfl, ?_⟩
  simp only [hfile]
  cases s.descriptors.file? fd with
  | none => exact h
  | some file =>
      have hhost := htwins.write file text h.same.host
      cases h with
      | @intro host s hs h => exact .intro (s := { s with host := _ }) hs hhost

/-- **A descriptor is duplicated in both**, if there is room. -/
theorem duplicate_together {file : OpenFile} (hfile : d.file? 0 = some file) (hd : d.room ≠ 0)
    (he : e.room ≠ 0) (h : Beside like d e s t) :
    Abreast (fun fd s gd t => fd = d.leastFree 0 ∧ gd = e.leastFree 0 ∧
        Beside like (d.assign fd file) (e.assign gd file) s t) (Beside like d e)
      ((duplicate 0 : ShellM σ Nat).run s) ((duplicate 0).run t) := by
  refine Abreast.bind
    (supervise_together h fun _ _ => Supervisor.enterCall_same htwins halike .dup) ?_
  rintro _ s _ t ⟨-, h⟩
  refine Abreast.get_bind ?_
  have hallocate : ∀ d : Descriptors, d.room ≠ 0 →
      d.allocate? file 0 = some (d.leastFree 0, d.assign (d.leastFree 0) file) :=
    fun d hd => Descriptors.allocate?_eq_some_iff.2 ⟨hd, rfl, rfl⟩
  have hfile' : e.file? 0 = some file := by rw [halike.standard 0 (by decide), hfile]
  simp only [h.left, h.right, hfile, hfile', hallocate d hd, hallocate e he]
  exact .ok ⟨rfl, rfl, h.tables _ _⟩

/-- **A pipe is made in both**, if there is room. -/
theorem makePipe_together (hd : 2 ≤ d.room) (he : 2 ≤ e.room) (h : Beside like d e s t) :
    Abreast (fun fds s gds t => ∃ pipe,
        fds.1 = d.leastFree 0 ∧ fds.2 = (d.assign fds.1 (.pipeReader pipe)).leastFree 0 ∧
        gds.1 = e.leastFree 0 ∧ gds.2 = (e.assign gds.1 (.pipeReader pipe)).leastFree 0 ∧
        Beside like ((d.assign fds.1 (.pipeReader pipe)).assign fds.2 (.pipeWriter pipe))
          ((e.assign gds.1 (.pipeReader pipe)).assign gds.2 (.pipeWriter pipe)) s t)
      (Beside like d e) ((makePipe : ShellM σ (Nat × Nat)).run s) (makePipe.run t) := by
  refine Abreast.bind
    (supervise_together h fun _ _ => Supervisor.enterCall_same htwins halike .pipe) ?_
  rintro _ s _ t ⟨-, h⟩
  refine Abreast.get_bind ?_
  rw [if_neg (by rw [h.left]; omega), if_neg (by rw [h.right]; omega)]
  have hpipes := htwins.newPipe h.same.host
  generalize Host.newPipe s.host = first at hpipes ⊢
  generalize Host.newPipe t.host = second at hpipes ⊢
  obtain ⟨pipe, host⟩ := first
  obtain ⟨_, host'⟩ := second
  obtain ⟨rfl, hhost⟩ := hpipes
  simp only [h.left, h.right]
  refine Abreast.set_bind (.ok ⟨_, rfl, rfl, rfl, rfl, ?_⟩)
  cases h with
  | @intro _ s hs h => exact .intro (s := { s with host := host, descriptors := _ }) rfl hhost

/-! ### Launching commands -/

/-- **The same command is launched in both**, with the same files. -/
theorem launch_together (command : Command) {input input' : Nat}
    {pipe pipe' : Option (Nat × Nat)} (jobClass : JobClass)
    (hinput : e.file? input' = d.file? input)
    (hpipe : (pipe'.map fun fds => (e.file? fds.1, e.file? fds.2)) =
      pipe.map fun fds => (d.file? fds.1, d.file? fds.2))
    (h : Beside like d e s t) :
    Together like d e ((launch command input pipe jobClass : ShellM σ Unit).run s)
      ((launch command input' pipe' jobClass).run t) := by
  refine Abreast.get_bind ?_
  have hplace : t.place = s.place := by
    cases h with
    | intro => rfl
  refine supervise_together h ?_
  intro v w hvw
  rw [h.left, h.right, hplace]
  refine Agree.bind
    (Supervisor.fork_same htwins halike ⟨rfl, rfl, rfl, hinput, hpipe, halike⟩ hvw) ?_
  intro pid v w
  exact Supervisor.register_same pid jobClass

omit halike

section Stages

variable {base base' : Descriptors} {file : OpenFile} {input input' : Nat}

/-- **The same commands are launched in both.**  The induction is on the commands: before each of
them the tables are those of the beginning, but for the number from which it reads. -/
theorem spawnStages_together (hbase : base.Alike base') (hd : 3 ≤ base.room) (he : 3 ≤ base'.room)
    (jobClass : JobClass) (commands : List Command)
    (hfree : base.isOpen input = false) (hfree' : base'.isOpen input' = false)
    (hlevel : Descriptors.Level input input')
    (h : Beside like (base.assign input file) (base'.assign input' file) s t) :
    Together like base base' ((spawnStages jobClass input commands : ShellM σ Unit).run s)
      ((spawnStages jobClass input' commands).run t) := by
  induction commands generalizing input input' file s t with
  | nil => exact closeLast_together hfree hfree' h
  | cons command rest ih =>
      have hinput : (base.assign input file).Alike (base'.assign input' file) :=
        hbase.assign hlevel hfree hfree'
      cases rest with
      | nil =>
          refine Together.bind (releasing_together (Descriptors.close_assign hfree)
            (Descriptors.close_assign hfree')
            (launch_together htwins hinput command jobClass ?_ rfl h)) ?_
          · simp [Descriptors.file?_assign]
          · exact fun _ _ _ => closeLast_together hfree hfree'
      | cons next rest =>
          have hroom : (base.assign input file).room = base.room - 1 :=
            Descriptors.room_assign_of_free hfree
          have hroom' : (base'.assign input' file).room = base'.room - 1 :=
            Descriptors.room_assign_of_free hfree'
          refine Abreast.bind (releasing_together (Descriptors.close_assign hfree)
            (Descriptors.close_assign hfree')
            (makePipe_together htwins hinput (by omega) (by omega) h)) ?_
          rintro ⟨reader, writer⟩ s ⟨reader', writer'⟩ t ⟨pipe, hr, hw, hr', hw', h⟩
          simp only at hr hw hr' hw' h
          have hconnected := Descriptors.Connected.of_leastFree hfree hr hw
          have hconnected' := Descriptors.Connected.of_leastFree hfree' hr' hw'
          -- the numbers of the pipe are not told apart either
          have hreader : Descriptors.Level reader reader' := hr ▸ hr' ▸ hinput.leastFree
          have hreaders : ((base.assign input file).assign reader (.pipeReader pipe)).Alike
              ((base'.assign input' file).assign reader' (.pipeReader pipe)) :=
            hinput.assign hreader hconnected.reader_free hconnected'.reader_free
          have hwriter : Descriptors.Level writer writer' := hw ▸ hw' ▸ hreaders.leastFree
          have hwriters : (((base.assign input file).assign reader (.pipeReader pipe)).assign writer
              (.pipeWriter pipe)).Alike
                (((base'.assign input' file).assign reader' (.pipeReader pipe)).assign writer'
                  (.pipeWriter pipe)) :=
            hreaders.assign hwriter hconnected.writer_free hconnected'.writer_free
          refine Together.bind (releasing_together hconnected.close_all hconnected'.close_all
            (launch_together htwins hwriters command jobClass ?_ ?_ h)) ?_
          · rw [hconnected.file?_input, hconnected'.file?_input]
          · simp only [Option.map_some, hconnected.file?_reader, hconnected'.file?_reader,
              hconnected.file?_writer, hconnected'.file?_writer]
          · intro _ s t h
            refine Abreast.bind
              (close_together hconnected.isOpen_input hconnected'.isOpen_input h) ?_
            intro _ s _ t h
            refine Abreast.bind
              (close_together hconnected.isOpen_writer hconnected'.isOpen_writer h) ?_
            intro _ s _ t h
            rw [hconnected.close_writer, hconnected'.close_writer] at h
            exact ih hconnected.reader_base.2 hconnected'.reader_base.2 hreader h

/-- **A pipeline is run by children in both.** -/
theorem runForked_together (hbase : base.Alike base') (hfile : base.file? 0 = some file)
    (hd : 3 ≤ base.room) (he : 3 ≤ base'.room) (p : Pipeline) (h : Beside like base base' s t) :
    Together like base base' ((runForked p : ShellM σ Unit).run s) ((runForked p).run t) := by
  refine Abreast.bind (duplicate_together htwins hbase hfile (by omega) (by omega) h) ?_
  rintro input s input' t ⟨hinput, hinput', h⟩
  have hfree : base.isOpen input = false := hinput ▸ Descriptors.leastFree_free _ 0
  have hfree' : base'.isOpen input' = false := hinput' ▸ Descriptors.leastFree_free _ 0
  have hlevel : Descriptors.Level input input' := hinput ▸ hinput' ▸ hbase.leastFree
  have hopened : (base.assign input file).Alike (base'.assign input' file) :=
    hbase.assign hlevel hfree hfree'
  have hclose : (base.assign input file).close input = base := Descriptors.close_assign hfree
  have hclose' : (base'.assign input' file).close input' = base' := Descriptors.close_assign hfree'
  refine Together.bind (releasing_together hclose hclose'
    (supervise_together h fun _ _ => Supervisor.block_same htwins hopened)) ?_
  intro previous s t h
  refine Abreast.restoring ?_ (fun _ _ _ _ h => ⟨h.1, h.2.signal _⟩) fun _ _ h => h.signal _
  refine Together.bind (releasing_together hclose hclose'
    (supervise_together h fun _ _ => Supervisor.reapIfNotified_same htwins hopened)) ?_
  intro _ s t h
  refine Together.bind
    (spawnStages_together htwins hbase hd he p.jobClass p.commands hfree hfree' hlevel h) ?_
  intro _ s t h
  refine Abreast.ite (fun _ => ?_) fun _ => Together.ofPure _ h
  exact supervise_together h fun _ _ => Supervisor.waitForeground_same htwins hbase

end Stages

/-! ### Builtin commands -/

omit [Host σ] htwins in
/-- A signal that the shells send to themselves does the same to both. -/
theorem receive_together (signal : Nat) (h : Beside like d e s t) :
    Together like d e ((receive signal : ShellM σ Unit).run s) ((receive signal).run t) := by
  refine Abreast.ite (fun _ => Together.ofPure _ h) fun _ => ?_
  refine Abreast.ite (fun _ => .ok ⟨rfl, h.signal ChildSignal.raise⟩) fun _ => ?_
  cases Signal.default signal with
  | ends => exact .stop h
  | stops => exact .stop h
  | continues | nothing => exact .ok ⟨rfl, h⟩

theorem sendSignal_together (arguments : List Bytes) (h : Beside like d e s t) :
    Together like d e ((sendSignal arguments : ShellM σ _).run s)
      ((sendSignal arguments).run t) := by
  unfold sendSignal
  cases killArguments arguments with
  | error error => exact Together.ofPure _ h
  | ok request =>
      obtain ⟨signal, pid⟩ := request
      refine Abreast.get_bind ?_
      have hreplies := htwins.kill pid signal h.same.host
      generalize Host.kill pid signal s.host = first at hreplies ⊢
      generalize Host.kill pid signal t.host = second at hreplies ⊢
      cases hreplies with
      | error herrno =>
          rw [herrno]
          exact Together.ofPure _ h
      | @ok first second hanswer =>
          obtain ⟨_, host⟩ := first
          obtain ⟨self, host'⟩ := second
          obtain ⟨rfl, hhost⟩ := hanswer
          have hsent : Beside like d e { s with host := host } { t with host := host' } := by
            cases h with
            | @intro _ s hs h => exact .intro (s := { s with host := host }) hs hhost
          refine Abreast.set_bind ?_
          cases self with
          | false => exact Together.ofPure _ hsent
          | true =>
              exact Together.bind (receive_together signal hsent) fun _ _ _ h => .ok ⟨rfl, h⟩

include halike

/-- **What a builtin does it does in both.** -/
theorem callBuiltin_together (b : Builtin) (arguments : List Bytes) (h : Beside like d e s t) :
    Together like d e ((callBuiltin b arguments : ShellM σ _).run s)
      ((callBuiltin b arguments).run t) := by
  -- all that a builtin looks at in the shell itself; the hosts answer alike
  have hsame : t.place = s.place ∧ t.home = s.home := by
    cases h with
    | intro => exact ⟨rfl, rfl⟩
  cases b with
  | exit =>
      change Together like d e ((requestExit arguments).run s) ((requestExit arguments).run t)
      unfold requestExit
      cases exitArgument arguments with
      | error error => exact Together.ofPure _ h
      | ok status =>
          refine .ok ⟨rfl, ?_⟩
          cases h with
          | @intro _ s hs h => exact .intro (s := { s with exitRequested := some status }) hs h
  | cd =>
      refine Abreast.get_bind ?_
      have hargument : t.cdArgument arguments = s.cdArgument arguments := by
        unfold cdArgument
        rw [hsame.2]
      rw [hargument, hsame.1]
      cases s.cdArgument arguments with
      | error error => exact Together.ofPure _ h
      | ok target =>
          refine Abreast.ite (fun _ => Together.ofPure _ h) fun _ => ?_
          rw [htwins.enter s.place target h.same.host]
          cases Host.enter s.place target s.host with
          | error errno => exact Together.ofPure _ h
          | ok place =>
              refine .ok ⟨rfl, ?_⟩
              cases h with
              | @intro _ s hs h => exact .intro (s := { s with place := place }) hs h
  | pwd =>
      refine Abreast.ite (fun _ => Together.ofPure _ h) fun _ => ?_
      refine Abreast.get_bind ?_
      rw [hsame.1, htwins.pathOf s.place h.same.host]
      cases Host.pathOf s.place s.host with
      | error errno => exact Together.ofPure _ h
      | ok path =>
          exact Together.bind (say_together htwins halike (by decide) _ h) fun _ _ _ h =>
            .ok ⟨rfl, h⟩
  | kill => exact sendSignal_together htwins arguments h

theorem runBuiltin_together (b : Builtin) (command : Command) (h : Beside like d e s t) :
    Together like d e ((runBuiltin b command : ShellM σ Unit).run s)
      ((runBuiltin b command).run t) := by
  refine Together.bind (supervise_together h fun _ _ => Supervisor.note_same _) ?_
  intro _ s t h
  refine Together.bind (callBuiltin_together htwins halike b command.arguments h) ?_
  rintro (error | _) s t h
  · exact say_together htwins halike (by decide) _ h
  · exact Together.ofPure _ h

/-! ### Lines -/

section Lines

variable {file : OpenFile} (hfile : d.file? 0 = some file) (hd : 3 ≤ d.room) (he : 3 ≤ e.room)

include hfile hd he

theorem runPipeline_together (p : Pipeline) (h : Beside like d e s t) :
    Together like d e ((runPipeline p : ShellM σ Unit).run s) ((runPipeline p).run t) := by
  unfold runPipeline
  cases p.builtin? with
  | none => exact runForked_together htwins halike hfile hd he p h
  | some found => exact runBuiltin_together htwins halike found.1 found.2 h

theorem execute_together (ps : List Pipeline) (h : Beside like d e s t) :
    Together like d e ((execute ps : ShellM σ Unit).run s) ((execute ps).run t) := by
  induction ps generalizing s t with
  | nil => exact Together.ofPure _ h
  | cons p ps ih =>
      refine Together.bind (runPipeline_together htwins halike hfile hd he p h) ?_
      intro _ s t h
      refine Abreast.get_bind ?_
      have hexit : t.exitRequested = s.exitRequested := by
        cases h with
        | intro => rfl
      rw [hexit]
      exact Abreast.ite (fun _ => Together.ofPure _ h) fun _ => ih h

/-- **A line does the same beside another shell**, whatever its text. -/
theorem runLine_together (text : Bytes) (h : Beside like d e s t) :
    Together like d e ((runLine text : ShellM σ Unit).run s) ((runLine text).run t) := by
  unfold runLine
  cases parse text >>= Line.validate with
  | ok pipelines => exact execute_together htwins halike hfile hd he pipelines h
  | error error => exact say_together htwins halike (by decide) _ h

end Lines

end Hosts

end Shell

end JobShell
