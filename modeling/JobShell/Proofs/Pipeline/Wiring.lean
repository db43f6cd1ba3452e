/-
**How a pipeline is wired.**

What the shell does to launch a pipeline, what its children do, and what becomes of the machine
meanwhile are brought together here.  Whatever the redirections, and whichever way a launch ends,
every stage that comes to its program reads and writes what it should, and has no other descriptors
than the shell had before.  The writing end of every pipe is open only in its stage and in what that
has started, and the reading end only in the next one.  When a stage has ended, its reader is told
so.  All this stays so while the shell runs other lines: it gives away only what it has itself, and
ends of pipes that are new.

There is one way around this.  A path such as `/dev/stdin` leads to an end of a pipe again, so a
stage that writes to what it reads keeps its own pipe from ending.

Main definitions:

* `JobShell.Shell.Sound` — a shell that is in order;
* `JobShell.Shell.Follows` — a later state of a shell;
* `JobShell.Shell.Wires` — what comes of running a pipeline.

Main results:

* `JobShell.Shell.runLines_follows` — a session leaves the shell in order;
* `JobShell.Shell.runForked_wired` — **the wiring of every pipeline**;
* `JobShell.Shell.runForked_wired_loop` — a pipeline whose pipe is open in both stages.
-/

import JobShell.Installation
import JobShell.Proofs.Containment
import JobShell.Proofs.Pipeline.Spawning

set_option autoImplicit false

namespace JobShell

open Machine (Runs HappensMany)
open Supervisor (forkedPids)

namespace Shell

variable {s t u : Shell Machine} {p : Pipeline} {stdin stdout : OpenFile} {stages : List Stage}
  {m : Machine} {r : Except Stop Unit}

/-! ### A shell in order -/

/-- A shell on a machine in order, with children that the machine knows and descriptors of pipes
that there are. -/
structure Sound (s : Shell Machine) : Prop where
  registered : s.toSupervisor.Registered
  machine : s.host.Sound
  covers : s.host.Covers s.descriptors

/-- What the shell gives to a child: of the pipes that there are, only ends that it has. -/
def Gives (s : Shell Machine) (a : Assignment) : Prop :=
  ∀ file i, file.pipe? = some i → i < s.host.pipes.length → a.descriptors.holds file = true →
    s.descriptors.holds file = true

/-- A later state of a shell, whatever it has run meanwhile. -/
structure Follows (s t : Shell Machine) : Prop where
  happens : HappensMany s.Gives s.host t.host
  sound : t.Sound
  descriptors : t.descriptors = s.descriptors

theorem Sound.fit (hs : s.Sound) (hstdin : s.descriptors.file? 0 = some stdin) :
    s.host.Fit s.descriptors stdin :=
  ⟨hs.machine, hs.covers, fun i hi => hs.covers stdin i hi (Descriptors.holds_of_file? hstdin)⟩

/-- There never are fewer pipes. -/
theorem Sound.of_pipes_le (hs : s.Sound) (hle : s.host.pipes.length ≤ t.host.pipes.length)
    (hregistered : t.toSupervisor.Registered) (hmachine : t.host.Sound)
    (hdescriptors : t.descriptors = s.descriptors) : t.Sound := by
  refine ⟨hregistered, hmachine, fun file i hfile hholds => ?_⟩
  rw [hdescriptors] at hholds
  exact Nat.lt_of_lt_of_le (hs.covers file i hfile hholds) hle

theorem Follows.refl (hs : s.Sound) : Follows s s := ⟨.refl, hs, rfl⟩

theorem Follows.pipes_le (hs : s.Sound) (h : Follows s t) :
    s.host.pipes.length ≤ t.host.pipes.length :=
  Machine.AdvancesMany.pipes_le (HappensMany.advances h.happens hs.machine.numbered)

theorem Follows.trans (hs : s.Sound) (h₁ : Follows s t) (h₂ : Follows t u) : Follows s u := by
  have hgives : ∀ a, t.Gives a → s.Gives a := by
    intro a ha file i hfile hi hholds
    rw [← h₁.descriptors]
    exact ha file i hfile (Nat.lt_of_lt_of_le hi (h₁.pipes_le hs)) hholds
  exact ⟨h₁.happens.trans (HappensMany.mono h₂.happens hgives), h₂.sound,
    h₂.descriptors.trans h₁.descriptors⟩

/-- What launches nothing. -/
theorem Spares.follows {α : Type} {r : Except Stop α} (hs : s.Sound) (h : Spares s r t) :
    Follows s t := by
  obtain ⟨hruns, hregistered⟩ := h.comes.happens hs.registered
  refine ⟨HappensMany.mono hruns fun _ => False.elim, ?_, h.descriptors⟩
  exact hs.of_pipes_le (Machine.Runs.pipes_le hruns hs.machine) hregistered
    (Machine.Runs.sound hruns hs.machine) h.descriptors

/-- What launches the stages of a pipeline. -/
theorem Spawned.follows (hs : s.Sound) (hstdin : s.descriptors.file? 0 = some stdin)
    (h : Spawned s.descriptors stdout stdin p.commands s stages m r t) : Follows s t := by
  have hfit := hs.fit hstdin
  have hmachine := h.launched.sound hfit
  have hgives : ∀ a : Assignment, (∀ file, a.descriptors.holds file = true →
      s.descriptors.holds file = true ∨ file = stdin ∨
        ∃ i, file.pipe? = some i ∧ s.host.pipes.length ≤ i) → s.Gives a := by
    intro a ha file i hfile hi hholds
    rcases ha file hholds with hbase | rfl | ⟨j, hj, hle⟩
    · exact hbase
    · exact Descriptors.holds_of_file? hstdin
    · obtain rfl : i = j := Option.some.inj (hfile.symm.trans hj)
      omega
  refine ⟨(h.launched.happens hfit hgives).trans
    (HappensMany.mono h.runs fun _ => False.elim), ?_, h.descriptors⟩
  have hle : s.host.pipes.length ≤ m.pipes.length :=
    Machine.AdvancesMany.pipes_le (h.launched.advances hfit)
  exact hs.of_pipes_le (Nat.le_trans hle (Machine.Runs.pipes_le h.runs hmachine)) h.registered
    (Machine.Runs.sound h.runs hmachine) h.descriptors

/-- A shell without children on a machine without processes. -/
theorem Sound.of_nil (hprocesses : s.host.processes = [])
    (hchildren : s.children = []) (hpid : 0 < s.host.nextPid)
    (hcovers : s.host.Covers s.descriptors) : s.Sound := by
  have hmachine : s.host.Sound := .of_nil hprocesses
  refine ⟨⟨hpid, ?_, hmachine.numbered⟩, hmachine, hcovers⟩
  rw [hchildren]
  exact fun c hc => absurd hc List.not_mem_nil

/-- The shell of a fresh installation is in order. -/
theorem sound_installation (entries : List (Bytes × Installation.Entry)) (environment : Environment)
    (input : Bytes) : (Installation.shell entries environment input).Sound := by
  have hpid : (0 : Int) < 101 := by decide
  refine .of_nil rfl rfl hpid fun file i hfile hholds => ?_
  have hlength : (Installation.shell entries environment input).host.pipes.length = 1 := rfl
  have hentries : (Installation.shell entries environment input).descriptors.entries =
      [(0, .pipeReader 0), (1, .output), (2, .diagnostics)] := rfl
  rw [hlength]
  simp only [Descriptors.holds, hentries, List.any_cons, List.any_nil, Bool.or_false,
    Bool.or_eq_true, decide_eq_true_eq] at hholds
  rcases hholds with rfl | rfl | rfl
  · cases hfile
    exact Nat.one_pos
  · cases hfile
  · cases hfile

/-! ### Sessions -/

section Sessions

variable (hs : s.Sound) (h0 : s.descriptors.isOpen 0 = true) (h1 : s.descriptors.isOpen 1 = true)

include hs in
/-- It is enough to consider what follows one state at a time. -/
theorem Follows.ensures {body : ShellM Machine Unit}
    (h : ∀ t, t.Sound → t.descriptors = s.descriptors →
      Ensures (· = t) body fun _ => Follows t) :
    Ensures (Follows s) body fun _ => Follows s :=
  Ensures.of_eq fun t ht => (h t ht.sound ht.descriptors).post fun _ _ => ht.trans hs

include hs h0 h1

theorem runPipeline_follows (p : Pipeline) :
    Ensures (Follows s) (runPipeline p) fun _ => Follows s := by
  refine Follows.ensures hs fun t ht hdescriptors => ?_
  unfold runPipeline
  cases p.builtin? with
  | some found => exact (runBuiltin_spares found.1 found.2).post fun _ _ => Spares.follows ht
  | none =>
      rw [← hdescriptors] at h0 h1
      obtain ⟨stdin, hstdin⟩ := Option.isSome_iff_exists.1 h0
      obtain ⟨stdout, hstdout⟩ := Option.isSome_iff_exists.1 h1
      refine (runForked_spawned ht.registered hstdin hstdout).post ?_
      rintro r u ⟨stages, m, hu⟩
      exact hu.follows ht hstdin

theorem execute_follows (ps : List Pipeline) :
    Ensures (Follows s) (execute ps) fun _ => Follows s := by
  induction ps with
  | nil => exact Ensures.ofPure fun _ h => h
  | cons p ps ih =>
      refine Ensures.bind _ (runPipeline_follows hs h0 h1 p) ?_ fun _ _ h => h
      refine fun _ => Ensures.get_bind fun t ht => ?_
      split
      · exact Ensures.ofPure fun u hu => hu ▸ ht
      · exact ih.pre fun u hu => hu ▸ ht

theorem runLine_follows (text : Bytes) :
    Ensures (Follows s) (runLine text) fun _ => Follows s := by
  unfold runLine
  cases parse text >>= Line.validate with
  | ok ps => exact execute_follows hs h0 h1 ps
  | error e =>
      exact Follows.ensures hs fun t ht _ =>
        (say_spares 2 syntaxError).post fun _ _ => Spares.follows ht

/-- **A session leaves the shell in order**, and gives away only what the shell has, and ends of
pipes that are new. -/
theorem runLines_follows (texts : List Bytes) :
    Ensures (Follows s) (runLines texts) fun _ => Follows s := by
  induction texts with
  | nil => exact Ensures.ofPure fun _ h => h
  | cons text texts ih =>
      exact Ensures.bind _ (runLine_follows hs h0 h1 text) (fun _ => ih) fun _ _ h => h

end Sessions

/-! ### The wiring of a pipeline -/

/-- What comes of running a pipeline in `s`: stages, the machine `m` when the last of them has just
been started, and the shell `t` at the end. -/
structure Wires (p : Pipeline) (s : Shell Machine) (stdin stdout : OpenFile) (stages : List Stage)
    (m : Machine) (r : Except Stop Unit) (t : Shell Machine) : Prop where
  /-- The stages are those of the first commands, and each reads the pipe of the one before it. -/
  chained : Stage.Chained stdin p.commands stages
  /-- If nothing fails there is one for every command. -/
  complete : r = .ok ⟨⟩ → stages.length = p.commands.length
  /-- They are the children that the shell has forked meanwhile. -/
  forked : forkedPids t.journal = forkedPids s.journal ++ stages.map (·.pid)
  /-- The shell has the descriptors that it had. -/
  descriptors : t.descriptors = s.descriptors
  /-- None of them is an end of a pipe of the pipeline. -/
  unheld : ∀ st ∈ stages, ∀ i, st.pipe = some i →
    s.descriptors.holds (.pipeReader i) = false ∧ s.descriptors.holds (.pipeWriter i) = false
  last : ∀ st, stages.getLast? = some st →
    ∃ m₀ a, m = Machine.start m₀ m₀.nextPid a ∧ st.pid = m₀.nextPid
  runs : Runs m t.host
  /-- From then on the stages are wired, whatever happens, as long as the shell gives no end of
  their pipes to other children. -/
  wired : ∀ m', HappensMany (Machine.Clear stages) m m' → m'.Wired s.descriptors stdout stages
  /-- It gives none away, whatever it runs afterwards. -/
  kept : ∀ ps texts, Machine.Wired
    ((execute ps >>= fun _ => runLines texts).run t).2.host s.descriptors stdout stages

/-- The shell has no end of a pipe that is new. -/
theorem Spawned.unheld (hs : s.Sound) (hstdin : s.descriptors.file? 0 = some stdin)
    (h : Spawned s.descriptors stdout stdin p.commands s stages m r t) {file : OpenFile}
    {st : Stage} {i : Nat} (hst : st ∈ stages) (hi : st.pipe = some i) (hfile : file.pipe? = some i) :
    s.descriptors.holds file = false := by
  have hrange := h.launched.pipe_range (hs.fit hstdin) hst hi
  rw [Bool.eq_false_iff]
  intro hholds
  exact absurd (hs.covers file i hfile hholds) (by omega)

/-- So it gives none to other children. -/
theorem Spawned.clear (hs : s.Sound) (hstdin : s.descriptors.file? 0 = some stdin)
    (h : Spawned s.descriptors stdout stdin p.commands s stages m r t) {a : Assignment}
    (ha : t.Gives a) : Machine.Clear stages a := by
  intro st hst i hi
  have hrange := h.launched.pipe_range (hs.fit hstdin) hst hi
  have hle := Machine.Runs.pipes_le h.runs (h.launched.sound (hs.fit hstdin))
  have hnone : ∀ file : OpenFile, file.pipe? = some i → a.descriptors.holds file = false := by
    intro file hfile
    rw [Bool.eq_false_iff]
    intro hholds
    have hgiven := ha file i hfile (by omega) hholds
    rw [h.descriptors, h.unheld hs hstdin hst hi hfile] at hgiven
    cases hgiven
  exact ⟨hnone _ rfl, hnone _ rfl⟩

theorem Spawned.wires (hs : s.Sound) (hstdin : s.descriptors.file? 0 = some stdin)
    (hstdout : s.descriptors.file? 1 = some stdout)
    (h : Spawned s.descriptors stdout stdin p.commands s stages m r t) :
    Wires p s stdin stdout stages m r t := by
  have hfit := hs.fit hstdin
  have hsound := h.launched.sound hfit
  have h0 : s.descriptors.isOpen 0 = true := by rw [Descriptors.isOpen, hstdin, Option.isSome_some]
  have h1 : s.descriptors.isOpen 1 = true := by rw [Descriptors.isOpen, hstdout, Option.isSome_some]
  have hwired : ∀ m', HappensMany (Machine.Clear stages) m m' →
      m'.Wired s.descriptors stdout stages := by
    intro m' hm'
    have hadvances := HappensMany.advances hm' hsound.numbered
    exact ((h.launched.arranged hfit h0 h1).advances hadvances fun _ => id).wired
      (Machine.AdvancesMany.tidy hadvances hsound.tidy)
  refine ⟨h.launched.chained, h.complete, h.forked, h.descriptors, ?_,
    fun st => h.launched.getLast?, h.runs, hwired, ?_⟩
  · exact fun st hst i hi =>
      ⟨h.unheld hs hstdin hst hi rfl, h.unheld hs hstdin hst hi rfl⟩
  · intro ps texts
    have ht := (h.follows hs hstdin).sound
    rw [← h.descriptors] at h0 h1
    have hfollows : Ensures (Follows t) (execute ps >>= fun _ => runLines texts)
        fun _ => Follows t :=
      Ensures.bind _ (execute_follows ht h0 h1 ps) (fun _ => runLines_follows ht h0 h1 texts)
        fun _ _ h => h
    have hhappens := (hfollows t (.refl ht)).happens
    exact hwired _ ((HappensMany.mono h.runs fun _ => False.elim).trans
      (HappensMany.mono hhappens fun _ => h.clear hs hstdin))

/-- **The wiring of every pipeline**, in the foreground or in the background, with any redirections
and however it ends. -/
theorem runForked_wired (p : Pipeline) {s : Shell Machine} (hs : s.Sound)
    (h0 : s.descriptors.isOpen 0 = true) (h1 : s.descriptors.isOpen 1 = true) :
    ∃ stdin stdout stages m, s.descriptors.file? 0 = some stdin ∧
      s.descriptors.file? 1 = some stdout ∧
        Wires p s stdin stdout stages m ((runForked p).run s).1 ((runForked p).run s).2 := by
  obtain ⟨stdin, hstdin⟩ := Option.isSome_iff_exists.1 h0
  obtain ⟨stdout, hstdout⟩ := Option.isSome_iff_exists.1 h1
  obtain ⟨stages, m, hspawned⟩ := runForked_spawned hs.registered hstdin hstdout s rfl
  exact ⟨stdin, stdout, stages, m, hstdin, hstdout, hspawned.wires hs hstdin hstdout⟩

/-- Two stages of a fresh shell. -/
theorem runForked_wired_two :
    ∃ stdin stdout stages m, stages.length = 2 ∧
      let p : Pipeline := ⟨[⟨utf8 "cat", [], []⟩, ⟨utf8 "wc", [], []⟩], true⟩
      let after := (runForked p).run (Installation.shell [] [] [])
      Wires p (Installation.shell [] [] []) stdin stdout stages m after.1 after.2 := by
  have hok : ((runForked ⟨[⟨utf8 "cat", [], []⟩, ⟨utf8 "wc", [], []⟩], true⟩).run
      (Installation.shell [] [] [])).1 = .ok ⟨⟩ := by decide +kernel
  obtain ⟨stdin, stdout, stages, m, -, -, h⟩ :=
    runForked_wired ⟨[⟨utf8 "cat", [], []⟩, ⟨utf8 "wc", [], []⟩], true⟩
      (sound_installation [] [] []) rfl rfl
  exact ⟨stdin, stdout, stages, m, h.complete hok, h⟩

/-- A fresh shell on a machine that gives processes their turns in the order of their ids. -/
def orderly : Shell Machine :=
  let s := Installation.shell [] [] []
  { s with host := { s.host with order := fun _ ps => ps.map (·.pid) } }

/-- A pipeline whose second command writes to what it reads. -/
def loop : Pipeline :=
  ⟨[⟨utf8 "/bin/true", [], []⟩, ⟨utf8 "/bin/cat", [], [⟨.output, utf8 "/dev/stdin"⟩]⟩], true⟩

/-- A pipeline whose writing end is open in the stage that reads it. -/
theorem runForked_wired_loop :
    ¬ ∀ (p : Pipeline) (s : Shell Machine), s.Sound → s.descriptors.isOpen 0 = true →
      s.descriptors.isOpen 1 = true → s.descriptors.isOpen 2 = true →
        ∀ stdin stdout stages m,
          Wires p s stdin stdout stages m ((runForked p).run s).1 ((runForked p).run s).2 →
            ∀ m', Runs ((runForked p).run s).2.host m' →
              (∀ q ∈ m'.processes, q.arrivals ≠ [] ∨ q.alive = false) →
                ∀ st ∈ stages, ∀ i, st.pipe = some i → ∀ q ∈ m'.processes,
                  q.descriptors.holds (.pipeWriter i) = true → q.root = st.pid := by
  intro h
  have hs : orderly.Sound := .of_nil rfl rfl (by decide) (sound_installation [] [] []).covers
  obtain ⟨stages, m, hspawned⟩ :=
    runForked_spawned (p := loop) (s := orderly) hs.registered rfl rfl orderly rfl
  have hwires := hspawned.wires hs rfl rfl
  have hforked : forkedPids ((runForked loop).run orderly).2.journal = [101, 102] := by
    decide +kernel
  have hpids : stages.map (·.pid) = [101, 102] := hspawned.forked.symm.trans hforked
  obtain ⟨st, hst, i, hi, hpid⟩ : ∃ st ∈ stages, ∃ i, st.pipe = some i ∧ st.pid = 101 := by
    cases hwires.chained with
    | nil => cases hpids
    | cons => exact ⟨_, List.mem_cons_self .., _, rfl, (List.cons.inj hpids).1⟩
  -- there is no pipe but the shell's input and that of the first stage
  obtain rfl : i = 1 := by
    have hrange := hspawned.launched.pipe_range (hs.fit rfl) hst hi
    have hle := Machine.Runs.pipes_le hspawned.runs (hspawned.launched.sound (hs.fit rfl))
    have hbefore : orderly.host.pipes.length = 1 := rfl
    have hafter : ((runForked loop).run orderly).2.host.pipes.length = 2 := by decide +kernel
    omega
  have hend := h loop orderly hs rfl rfl rfl _ _ stages m hwires
    (((runForked loop).run orderly).2.host.runFor orderly.descriptors 30)
    (Machine.runFor_happens orderly.descriptors 30) (by decide +kernel) st hst 1 hi
  obtain ⟨q, hq, hholds, hroot⟩ : ∃ q ∈
      (((runForked loop).run orderly).2.host.runFor orderly.descriptors 30).processes,
        q.descriptors.holds (.pipeWriter 1) = true ∧ q.root = 102 := by
    decide +kernel
  rw [hend q hq hholds, hpid] at hroot
  cases hroot

end Shell

end JobShell
