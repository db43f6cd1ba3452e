/-
**The stages of a pipeline that have a NUL byte.**

Whatever a pipeline is made of, a child that is forked for a command with a NUL byte opens no file of
a redirection, runs no program, and changes nothing but the diagnostics of the shell.  To these it
adds one line that says where the byte is, and then it ends with the status of a failed launch.  The
shell goes on as it would without it.

A child is followed from the machine at its fork, so nothing is left out that happens while the shell
is still busy with the rest of the pipeline.

Main definitions:

* `JobShell.Machine.Bore`, `JobShell.Supervisor.Begets` — children that have been forked in the course
  of a story;
* `JobShell.Assignment.Stillborn` — what is to be said of a child with a NUL byte;
* `JobShell.Shell.GoesOn` — a shell that has come to the end of a pipeline.

Main results:

* `JobShell.Supervisor.Dispatches.forks` — the forks of a launch;
* `JobShell.Assignment.stillborn` — a child from its fork on;
* `JobShell.Shell.runForked_goesOn` — the shell goes on;
* `JobShell.Shell.runPipeline_stillborn` — **a NUL byte stops a command before any effect.**
-/

import JobShell.Proofs.NulByte
import JobShell.Proofs.Pipeline.Independence

set_option autoImplicit false

namespace JobShell

open Machine (Alone Story)

namespace Machine

variable {m m' m'' m₀ : Machine} {pid : Int} {a : Assignment} {acts : List (Int × Deed)}

/-- **A child was forked in the course of a story** from `m` to `m'`, when the machine was `m₀`. -/
structure Bore (m m' : Machine) (pid : Int) (a : Assignment) (m₀ : Machine) : Prop where
  before : ∃ acts, Story m acts m₀
  pid_eq : m₀.nextPid = pid
  since : ∃ acts, Story (m₀.start m₀.nextPid a) acts m'

theorem Bore.head (h : Bore m' m'' pid a m₀) (hstory : Story m acts m') : Bore m m'' pid a m₀ := by
  obtain ⟨⟨before, hbefore⟩, hpid, hsince⟩ := h
  exact ⟨⟨_, hstory.trans hbefore⟩, hpid, hsince⟩

theorem Bore.tail (h : Bore m m' pid a m₀) (hstory : Story m' acts m'') : Bore m m'' pid a m₀ := by
  obtain ⟨hbefore, hpid, since, hsince⟩ := h
  exact ⟨hbefore, hpid, _, hsince.trans hstory⟩

/-- A new id is nobody's yet, and names no group. -/
theorem Grouped.process?_nextPid (hm : m.Grouped) : m.process? m.nextPid = none := by
  cases hprocess : m.process? m.nextPid with
  | none => rfl
  | some p =>
      obtain ⟨hmem, hpid⟩ := mem_standings_of_process? hprocess
      exact absurd (hm.numbered.lt _ hmem) (hpid ▸ Int.lt_irrefl _)

theorem Grouped.not_leader (hm : m.Grouped) (a : Assignment) :
    ∀ q ∈ (m.start m.nextPid a).processes, q.group ≠ m.nextPid := by
  intro q hq hgroup
  rcases mem_groups_start (List.mem_map_of_mem hq) with hmem | hshell
  · exact absurd (hm.groups _ hmem) (hgroup ▸ Int.lt_irrefl _)
  · exact absurd hm.shell (hgroup ▸ hshell ▸ Int.lt_irrefl _)

end Machine

namespace Supervisor

variable {s t : Supervisor Machine} {as : List Assignment} {pipes : List Nat} {pids : List Int}

/-- Children that have been forked in the course of a story, each for an assignment. -/
def Begets (m m' : Machine) (pids : List Int) (as : List Assignment) : Prop :=
  List.Forall₂ (fun pid a => ∃ m₀, m.Bore m' pid a m₀) pids as

theorem Begets.head {m m' m'' : Machine} {acts : List (Int × Machine.Deed)}
    (h : Begets m' m'' pids as) (hstory : Story m acts m') : Begets m m'' pids as :=
  h.imp fun _ _ => Exists.imp fun _ hbore => hbore.head hstory

theorem Begets.tail {m m' m'' : Machine} {acts : List (Int × Machine.Deed)}
    (h : Begets m m' pids as) (hstory : Story m' acts m'') : Begets m m'' pids as :=
  h.imp fun _ _ => Exists.imp fun _ hbore => hbore.tail hstory

/-- **The forks of a launch.** -/
theorem Dispatches.forks (h : Dispatches as pipes pids s t) (hs : s.Registered)
    (hm : s.host.Grouped) : Begets s.host t.host pids as := by
  induction h with
  | nil => exact .nil
  | @drift as pipes pids s t held _ ih =>
      obtain ⟨acts, hstory⟩ := drifted_story held s
      have hdrifted : Moves (fun _ => True) s (s.drifted held) := .drift held s
      exact (ih (hdrifted.happens hs).2 (hstory.grouped hm)).head hstory
  | @pipe as pipes pids s t _ ih =>
      have hstory : Story s.host [] (Host.newPipe s.host).2 := Machine.Act.pipe.story
      have hpiped : Moves (fun _ => True) s { s with host := (Host.newPipe s.host).2 } := .pipe s
      exact (ih (hpiped.happens hs).2 (hstory.grouped hm)).head hstory
  | @launch a as pipes jobs pids s t hregister hrest ih =>
      have hpid := choosePid_eq hs
      have hstory := forked_story hs a
      have hlaunched : Moves (fun _ => True) s { s.forked a with jobs := jobs } :=
        .launch trivial hregister
      have hregistered := (hlaunched.happens hs).2
      have hgrouped : (s.forked a).host.Grouped := hstory.grouped hm
      -- the rest of the launch is a story like any other for this child
      obtain ⟨-, hsince⟩ := Reaches.story hrest.reaches hregistered
      have hbore : s.host.Bore t.host s.choosePid a s.host :=
        ⟨⟨[], .nil⟩, hpid.symm, hs.forked_host a ▸ hsince⟩
      exact .cons ⟨s.host, hbore⟩ ((ih hregistered hgrouped).head hstory)

/-- The forks of a launch, with what happens before and after it. -/
theorem Dispatches.forks_within {u v : Supervisor Machine} {r : Except Stop Unit}
    (h : Dispatches as pipes pids v u) (hv : Lulls s v) (hu : Comes (fun _ => False) u r t)
    (hs : s.Registered) (hm : s.host.Grouped) : Begets s.host t.host pids as := by
  obtain ⟨hregistered, before, hbefore⟩ := Reaches.story hv.reaches hs
  have hforks := (h.forks hregistered (hbefore.grouped hm)).head hbefore
  obtain ⟨hregistered', -⟩ := Reaches.story h.reaches hregistered
  obtain ⟨later, hlater⟩ := hu.story hregistered'
  exact hforks.tail hlater

end Supervisor

namespace Assignment

variable {a : Assignment} {m₀ : Machine} {position : Nat}

/-- **What is to be said of a child whose command has a NUL byte**, from its fork on, when the machine
was `m₀`. -/
structure Stillborn (a : Assignment) (m₀ : Machine) (position : Nat) : Prop where
  /-- Whatever happens, it does nothing but to say where the byte is, and to end. -/
  barren : ∀ acts m, Story (m₀.start m₀.nextPid a) acts m →
    ∃ q ∈ m.processes, q.pid = m₀.nextPid ∧ q.Barren m position (deedsOf m₀.nextPid acts)
  /-- Left alone it comes to its end.  It has exited with the status of a failed launch then, the
  diagnostics have one more line, and all else that it can see is as it was. -/
  ends : ∀ held, ∃ m, Alone held m₀.nextPid (m₀.start m₀.nextPid a) m ∧
    m.Left m₀.nextPid (.exited launchFailure)
      { a.scene m₀ 0 with
        diagnostics := m₀.diagnostics ++ (LaunchError.nul position).line }

/-- **A child from its fork on.** -/
theorem stillborn (ha : a.Able) (hm : m₀.Grouped) (hnul : a.command.NulAt position) :
    a.Stillborn m₀ position where
  barren acts m hstory := by
    have hborn := Machine.bearsCut_start ha hm hnul
    have hgrown := hborn.story ha ((Machine.Act.start a).grouped hm) hstory
    rw [List.nil_append] at hgrown
    exact hgrown.barren
  ends held := by
    have hpoised : (m₀.start m₀.nextPid a).Poised m₀.nextPid (a.run m₀.environment)
        (a.scene m₀ 0) := poised_start m₀.nextPid hm.process?_nextPid
    exact run_nul held ha hnul (fun _ => hm.not_leader a) rfl hpoised

end Assignment

namespace Shell

open Supervisor (forkedPids Begets)

variable {p : Pipeline} {s t : Shell Machine} {stdin : OpenFile} {r : Except Stop Unit}

/-- **The children of a pipeline** are forked for all of its commands in order, or for none. -/
theorem runForked_forks (hs : s.Poised) (hfile : s.descriptors.file? 0 = some stdin)
    (hrun : (runForked p).run s = (r, t)) :
    ∃ pids, forkedPids t.journal = forkedPids s.journal ++ pids ∧
      (pids = [] ∨ ∃ pipes, pipes.length = p.commands.length - 1 ∧
        pids.length = p.commands.length ∧
          Begets s.host t.host pids (p.seated s.descriptors s.place stdin pipes)) := by
  have hlaunched := runForked_all_or_none (p := p) (fun _ _ => rfl) hs.accounted hfile s rfl
  rw [hrun] at hlaunched
  rcases hlaunched with hnone | ⟨v, pipes, pids, u, hv, hlength, hdispatches, hcomes⟩
  · exact ⟨[], by rw [List.append_nil]; exact hnone, .inl rfl⟩
  · have henrolled := (enrolls_of_dispatches hlength hdispatches).enrolled
    refine ⟨pids, ?_, .inr ⟨pipes, hlength, henrolled.length, ?_⟩⟩
    · rw [hcomes.forkedPids, henrolled.forked, hv.untouched.forked]
    · exact hdispatches.forks_within hv hcomes hs.registered hs.grouped

/-- **A child whose command has a NUL byte.** -/
theorem stillborn_of_forks {pids : List Int} {pipes : List Nat}
    (hforks : Begets s.host t.host pids (p.seated s.descriptors s.place stdin pipes))
    (hlength : pipes.length = p.commands.length - 1) (hs : s.Poised)
    (hfile : s.descriptors.file? 0 = some stdin)
    (hdiagnostics : s.descriptors.file? 2 = some .diagnostics) {i : Nat} {c : Command} {pid : Int}
    (hc : p.commands[i]? = some c) (hpid : pids[i]? = some pid)
    (hnul : ∃ text ∈ c.words ++ c.redirections.map (·.target), nul ∈ text) :
    ∃ position a m₀, c.NulAt position ∧ a.command = c ∧ s.host.Bore t.host pid a m₀ ∧
      a.Stillborn m₀ position := by
  obtain ⟨position, hposition⟩ := Command.exists_nulAt_iff.2 hnul
  have hcount : p.commands.length = pipes.length + 1 := by
    have hpositive := (List.getElem?_eq_some_iff.1 hc).1
    omega
  have hable : ∀ a ∈ p.seated s.descriptors s.place stdin pipes, a.Able :=
    p.seated_able hcount (Option.isSome_of_eq_some hfile) hdiagnostics
  have hcommands : (p.seated s.descriptors s.place stdin pipes).map (·.command) = p.commands :=
    Seat.command_assignAll (Nat.le_of_eq (by rw [Descriptors.length_seats, hcount]))
  rw [← hcommands, List.getElem?_map] at hc
  obtain ⟨a, ha, rfl⟩ := Option.map_eq_some_iff.1 hc
  obtain ⟨hi, rfl⟩ := List.getElem?_eq_some_iff.1 hpid
  obtain ⟨hi', rfl⟩ := List.getElem?_eq_some_iff.1 ha
  obtain ⟨m₀, hbore⟩ := List.Forall₂.get hforks hi hi'
  obtain ⟨before, hbefore⟩ := hbore.before
  exact ⟨position, _, m₀, hposition, rfl, hbore,
    Assignment.stillborn (hable _ (List.getElem_mem hi')) (hbefore.grouped hs.grouped) hposition⟩

/-- How a shell goes on that has come to the end of a pipeline, for which it has forked children. -/
structure GoesOn (p : Pipeline) (s t : Shell Machine) (r : Except Stop Unit) (pids : List Int) :
    Prop where
  ok : r = .ok ()
  /-- There has been a child for each command. -/
  complete : pids.length = p.commands.length
  poised : t.Poised
  descriptors : t.descriptors = s.descriptors
  exitRequested : t.exitRequested = s.exitRequested
  /-- The pipelines after it are run. -/
  executes : s.exitRequested = none → ∀ ps, (execute (p :: ps)).run s = (execute ps).run t
  /-- The children of the foreground have ended, and the shell has been told how. -/
  ended : p.background = false → ∀ pid ∈ pids, ∃ q ∈ t.host.processes, q.pid = pid ∧
    ∃ ending, q.phase = .ended ending ∧ .died pid ending ∈ t.journal

/-- **The shell goes on**, with enough descriptors, if all deaths have names and the children of the
foreground end. -/
theorem runForked_goesOn (hbuiltin : p.builtin? = none) (hs : s.Poised)
    (hrun : (runForked p).run s = (r, t)) (hfile : s.descriptors.file? 0 = some stdin)
    (hdiagnostics : s.descriptors.file? 2 = some .diagnostics)
    (hroom : p.commands.length = 1 ∧ 1 ≤ s.descriptors.room ∨
      2 ≤ p.commands.length ∧ 3 ≤ s.descriptors.room)
    (hnamed : Named t.journal)
    (hends : ∀ l ∈ lives (t.journal.drop s.journal.length), l.jobClass = .foreground →
      l.ending ≠ none)
    {pids : List Int} (hforked : forkedPids t.journal = forkedPids s.journal ++ pids) :
    GoesOn p s t r pids := by
  have hcommands : p.commands ≠ [] := List.length_pos_iff.1 (by omega)
  obtain rfl : r = .ok () := runForked_returns hbuiltin hcommands hs hrun hfile (by omega)
    (by omega) hnamed hends
  obtain ⟨pipes, pids', acts, hundisturbed⟩ := undisturbed_of_run hbuiltin hcommands hs hrun hfile
    hdiagnostics (by omega) (by omega) hnamed
  obtain rfl : pids = pids' := List.append_cancel_left (hforked.symm.trans hundisturbed.forked)
  obtain ⟨v, u, -, henrolled, -⟩ := hundisturbed.launched
  refine ⟨rfl, henrolled.length, hundisturbed.poised, hundisturbed.descriptors,
    hundisturbed.exitRequested, fun hexit ps => ?_, fun hforeground pid hpid => ?_⟩
  · have hnone : t.exitRequested = none := hundisturbed.exitRequested.trans hexit
    rw [execute_cons, andThen, runPipeline_eq hbuiltin, hrun]
    simp [hnone]
  · obtain ⟨i, hi, rfl⟩ := List.getElem_of_mem hpid
    obtain ⟨-, hstages⟩ := hundisturbed.stages [] t.host .nil
    obtain ⟨q, hq, hsame, -, -, hended⟩ := hstages.get hi (hstages.length_eq ▸ hi)
    exact ⟨q, hq, hsame, hended hforeground⟩

/-- **A NUL byte stops a command before any effect.**  A shell on a machine, between two pipelines,
runs a pipeline that is not a builtin alone, in the foreground or in the background, whatever becomes
of it.

* It forks a child for each of the commands, in order, or for none, if it is short of descriptors or
  stops before that.
* If a command has a NUL byte in a word or in the target of a redirection, its child neither opens a
  file of a redirection nor runs a program, and no turn of it changes a file, a pipe or the output,
  whatever happens from its fork on.  It tells one line to the diagnostics, with the position of the
  first NUL byte in the first string that has one, all words coming before all targets, and ends with
  the status of a failed launch.  Only a signal may end it before that.
* The shell goes on, if it has enough descriptors, all deaths have names and the children of the
  foreground end. -/
theorem runPipeline_stillborn (hbuiltin : p.builtin? = none) (hs : s.Poised)
    (hstdin : s.descriptors.file? 0 = some stdin)
    (hdiagnostics : s.descriptors.file? 2 = some .diagnostics) :
    let after := (runPipeline p).run s
    ∃ pids, forkedPids after.2.journal = forkedPids s.journal ++ pids ∧
      (pids = [] ∨ pids.length = p.commands.length) ∧
      (∀ (i : Nat) (c : Command) (pid : Int), p.commands[i]? = some c → pids[i]? = some pid →
        (∃ text ∈ c.words ++ c.redirections.map (·.target), nul ∈ text) →
          ∃ position a m₀, c.NulAt position ∧ a.command = c ∧
            s.host.Bore after.2.host pid a m₀ ∧ a.Stillborn m₀ position) ∧
      ((p.commands.length = 1 ∧ 1 ≤ s.descriptors.room ∨
          2 ≤ p.commands.length ∧ 3 ≤ s.descriptors.room) →
        Named after.2.journal →
        (∀ l ∈ lives (after.2.journal.drop s.journal.length), l.jobClass = .foreground →
          l.ending ≠ none) →
        GoesOn p s after.2 after.1 pids) := by
  intro after
  have hrun : (runForked p).run s = (after.1, after.2) := by
    rw [← runPipeline_eq hbuiltin]
    rfl
  obtain ⟨pids, hforked, hall⟩ := runForked_forks hs hstdin hrun
  refine ⟨pids, hforked, hall.imp id fun ⟨_, _, hlength, _⟩ => hlength, ?_, ?_⟩
  · intro i c pid hc hpid hnul
    rcases hall with rfl | ⟨pipes, hlength, -, hforks⟩
    · cases hpid
    · exact stillborn_of_forks hforks hlength hs hstdin hdiagnostics hc hpid hnul
  · intro hroom hnamed hends
    exact runForked_goesOn hbuiltin hs hrun hstdin hdiagnostics hroom hnamed hends hforked

/-- Three commands that are to write the same file: one has a NUL byte in a word, one in its last
target, and one has none. -/
def soiled : Pipeline :=
  ⟨[⟨utf8 "echo", [[97, 98, 0]], [⟨.output, utf8 "f"⟩]⟩,
    ⟨utf8 "true", [], [⟨.output, utf8 "g"⟩, ⟨.append, [0]⟩]⟩, ⟨utf8 "true", [], []⟩], false⟩

/-- Two of three commands have a NUL byte, and the shell goes on. -/
theorem runPipeline_stillborn_two :
    let after := (runPipeline soiled).run orderly
    (∃ pids, pids.length = 3 ∧ GoesOn soiled orderly after.2 after.1 pids ∧
      (∃ (a : Assignment) (m₀ : Machine), a.Stillborn m₀ 2) ∧
        ∃ (a : Assignment) (m₀ : Machine), a.Stillborn m₀ 0) ∧
      after.2.host.diagnostics = utf8 "nul byte found in provided data at position: 2\n" ++
        utf8 "nul byte found in provided data at position: 0\n" := by
  intro after
  have hpoised : orderly.Poised := .initial rfl rfl rfl (by decide) (by decide)
  obtain ⟨pids, -, -, hstillborn, hgoesOn⟩ :=
    runPipeline_stillborn (p := soiled) (s := orderly) rfl hpoised rfl rfl
  have hafter : GoesOn soiled orderly after.2 after.1 pids :=
    hgoesOn (.inr (by decide)) (by decide +kernel) (by decide +kernel)
  have hlength : pids.length = 3 := hafter.complete
  have hat : ∀ (i : Nat) (c : Command) (position : Nat), soiled.commands[i]? = some c →
      c.nulPosition? = some position →
        ∃ (a : Assignment) (m₀ : Machine), a.Stillborn m₀ position := by
    intro i c position hc hposition
    have hi : i < pids.length := hlength ▸ (List.getElem?_eq_some_iff.1 hc).1
    have hnul := Command.exists_nulAt_iff.1 ⟨_, Command.nulPosition?_eq_some_iff.1 hposition⟩
    obtain ⟨position', a, m₀, hfirst, -, -, h⟩ :=
      hstillborn i c pids[i] hc (List.getElem?_eq_getElem hi) hnul
    have hsame := (Command.nulPosition?_eq_some_iff.2 hfirst).symm.trans hposition
    obtain rfl := Option.some.inj hsame
    exact ⟨a, m₀, h⟩
  exact ⟨⟨pids, hlength, hafter, hat 0 _ 2 rfl (by decide), hat 1 _ 0 rfl (by decide)⟩,
    by decide +kernel⟩

end Shell

end JobShell
