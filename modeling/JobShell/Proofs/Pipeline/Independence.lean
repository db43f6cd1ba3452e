/-
**The stages of a pipeline do not depend on each other.**

Any of the commands of a pipeline may have a NUL byte in a word, a redirection that cannot be opened,
or a program that cannot be run.  Still each of them gets a child of its own, in its own place.  A
child that cannot run its program says why, once, and exits with the status of a failed launch; each
other child comes to its program with its own words and in its own place, as if there were no failure
at all.  The shell gets over it: a foreground pipeline comes to its end when its children have ended,
a background pipeline at once, and the pipelines after it are run.

All this is said of a machine, on which the children run as they like, and other processes with them.
What has been done is listed act by act, and so is what happens after the shell has gone on.

Main definitions:

* `JobShell.Supervisor.Children` — children that have been forked, with what has been done since;
* `JobShell.Shell.Poised` — a shell between two pipelines;
* `JobShell.Shell.Undisturbed` — the stages of a pipeline, each with its own fate.

Main results:

* `JobShell.Supervisor.Dispatches.bears` — every child that has been forked keeps its course;
* `JobShell.Supervisor.Children.fates` — what that means for the diagnostics and for each child;
* `JobShell.Shell.runForked_returns` — the shell comes back from its children;
* `JobShell.Shell.runPipeline_undisturbed` — **stages that cannot be launched disturb no others.**
-/

import JobShell.Proofs.Course
import JobShell.Proofs.Machine.Testimony
import JobShell.Proofs.Pipeline.Completion
import JobShell.Proofs.Pipeline.Shortage
import JobShell.Proofs.Pipeline.Wiring

set_option autoImplicit false

namespace JobShell

open Machine (Story)

namespace Supervisor

variable {s t u : Supervisor Machine} {as : List Assignment} {pipes : List Nat} {pids : List Int}

theorem Lulls.reaches (h : Lulls s t) : Reaches (fun _ => True) s t :=
  Relation.ReflTransGen.mono (fun _ _ hlull => hlull.moves _) _ _ h

theorem Dispatches.reaches (h : Dispatches as pipes pids s t) : Reaches (fun _ => True) s t := by
  induction h with
  | nil => exact .refl
  | drift held _ ih => exact .head (.drift held _) ih
  | pipe _ ih => exact .head (.pipe _) ih
  | launch hregister _ ih => exact .head (.launch trivial hregister) ih

/-- The pipes are new, and each one comes after those before it. -/
structure NewPipes (m : Machine) (pipes : List Nat) : Prop where
  increasing : pipes.Pairwise (· < ·)
  le : ∀ pipe ∈ pipes, m.pipes.length ≤ pipe

/-- What children have done since they were forked, each in its own way. -/
structure Children (s t : Supervisor Machine) (as : List Assignment) (pipes : List Nat)
    (pids : List Int) (acts : List (Int × Machine.Deed)) : Prop where
  story : Story s.host acts t.host
  fresh : NewPipes s.host pipes
  later : ∀ pid ∈ pids, s.host.nextPid ≤ pid
  bears : List.Forall₂ (fun pid a => t.host.Bears pid a s.host.environment (deedsOf pid acts)) pids as

/-- Something has happened before the children were forked. -/
theorem Children.head {acts more : List (Int × Machine.Deed)} (h : Children t u as pipes pids more)
    (hm : s.host.Grouped) (hstory : Story s.host acts t.host) :
    Children s u as pipes pids (acts ++ more) := by
  refine ⟨hstory.trans h.story, ⟨h.fresh.increasing, fun pipe hpipe => ?_⟩, fun pid hpid => ?_, ?_⟩
  · exact Nat.le_trans (hstory.pipes_le hm) (h.fresh.le pipe hpipe)
  · exact Int.le_trans (hstory.nextPid_le hm) (h.later pid hpid)
  · have hbears := (List.forall₂_and_left (p := (· ∈ pids)) _ _).2 ⟨fun _ hpid => hpid, h.bears⟩
    refine hbears.imp fun pid a hpid => ?_
    rw [hstory.deedsOf_of_le hm (h.later pid hpid.1), ← hstory.environment hm]
    exact hpid.2

/-- **Every child that has been forked keeps its course**, whatever the others do. -/
theorem Dispatches.bears (h : Dispatches as pipes pids s t) (hs : s.Registered)
    (hm : s.host.Grouped) (has : ∀ a ∈ as, a.Able) : ∃ acts, Children s t as pipes pids acts := by
  induction h with
  | nil s => exact ⟨[], .nil, ⟨.nil, nofun⟩, nofun, .nil⟩
  | @drift as pipes pids s t held _ ih =>
      obtain ⟨acts, hstory⟩ := drifted_story held s
      have hdrifted : Moves (fun _ => True) s (s.drifted held) := .drift held s
      obtain ⟨more, hchildren⟩ := ih (hdrifted.happens hs).2 (hstory.grouped hm) has
      exact ⟨_, hchildren.head hm hstory⟩
  | @pipe as pipes pids s t _ ih =>
      have hstory : Story s.host [] (Host.newPipe s.host).2 := Machine.Act.pipe.story
      have hpiped : Moves (fun _ => True) s { s with host := (Host.newPipe s.host).2 } := .pipe s
      obtain ⟨more, hchildren⟩ := ih (hpiped.happens hs).2 (hstory.grouped hm) has
      obtain ⟨hwhole, ⟨hincreasing, hle⟩, hpids, hbears⟩ := hchildren.head hm hstory
      refine ⟨more, hwhole, ⟨.cons (fun pipe hpipe => ?_) hincreasing, ?_⟩, hpids, hbears⟩
      · -- what is made later has a number above this one
        have hlater := hchildren.fresh.le pipe hpipe
        have hlength : (Host.newPipe s.host).2.pipes.length = s.host.pipes.length + 1 :=
          List.length_append
        rw [hlength] at hlater
        exact hlater
      · exact List.forall_mem_cons.2 ⟨Nat.le_refl _, hle⟩
  | @launch a as pipes jobs pids s t hregister _ ih =>
      rw [List.forall_mem_cons] at has
      have hpid := choosePid_eq hs
      have hstory := forked_story hs a
      have hlaunched : Moves (fun _ => True) s { s.forked a with jobs := jobs } :=
        .launch trivial hregister
      obtain ⟨more, hchildren⟩ := ih (hlaunched.happens hs).2 (hstory.grouped hm) has.2
      -- for this child the rest of the launch is a story like any other
      have hfirst : t.host.Bears s.choosePid a s.host.environment (deedsOf s.choosePid more) := by
        have hstart := Machine.bears_start has.1 hm
        rw [← hs.forked_host, ← hpid] at hstart
        exact hstart.story has.1 (hstory.grouped hm) hchildren.story
      obtain ⟨hwhole, hpipes, hpids, hbears⟩ := hchildren.head hm hstory
      refine ⟨more, hwhole, hpipes, ?_, .cons hfirst hbears⟩
      exact List.forall_mem_cons.2 ⟨Int.le_of_eq hpid.symm, hpids⟩

/-- The story goes on. -/
theorem Children.bears_story {m : Machine} {acts more : List (Int × Machine.Deed)}
    (h : Children s t as pipes pids acts) (hs : s.host.Grouped) (has : ∀ a ∈ as, a.Able)
    (hmore : Story t.host more m) :
    List.Forall₂ (fun pid a => m.Bears pid a s.host.environment (deedsOf pid (acts ++ more)))
      pids as := by
  have hable := (List.forall₂_and_left (p := Assignment.Able) _ _).2 ⟨has, h.bears.flip⟩
  refine hable.flip.imp ?_
  rintro pid a ⟨ha, hbears⟩
  rw [deedsOf_append]
  exact Machine.Bears.story hbears ha (h.story.grouped hs) hmore

theorem Children.tail {acts more : List (Int × Machine.Deed)} (h : Children s t as pipes pids acts)
    (hs : s.host.Grouped) (has : ∀ a ∈ as, a.Able) (hmore : Story t.host more u.host) :
    Children s u as pipes pids (acts ++ more) :=
  ⟨h.story.trans hmore, h.fresh, h.later, h.bears_story hs has hmore⟩

/-- **What the story means for the diagnostics and for each child**, if some of the children are known
to have ended. -/
theorem Children.fates {m : Machine} {acts more : List (Int × Machine.Deed)} {complete : Prop}
    (h : Children s t as pipes pids acts) (hs : s.host.Grouped) (has : ∀ a ∈ as, a.Able)
    (ht : t.host.Grouped) (hended : complete → ∀ pid ∈ pids, ∃ ending,
      .died pid ending ∈ t.journal ∧ t.host.HasEnded pid ending) (hmore : Story t.host more m) :
    m.diagnostics = s.host.diagnostics ++ (acts ++ more).flatMap (·.2.text) ∧
      List.Forall₂ (fun pid a => ∃ q ∈ m.processes, q.pid = pid ∧
          a.Fate s.host.environment q (deedsOf pid (acts ++ more)) ∧ a.Proceeds m q ∧
          (complete → ∃ ending, q.phase = .ended ending ∧ .died pid ending ∈ t.journal))
        pids as := by
  refine ⟨(h.story.trans hmore).diagnostics hs, ?_⟩
  have hpids := (List.forall₂_and_left (p := (· ∈ pids)) _ _).2
    ⟨fun _ h => h, h.bears_story hs has hmore⟩
  refine hpids.imp ?_
  rintro pid a ⟨hpid, hbears⟩
  obtain ⟨q, hq, rfl, hfate, hproceeds⟩ := Machine.Bears.fate hbears
  refine ⟨q, hq, rfl, hfate, hproceeds, fun hcomplete => ?_⟩
  obtain ⟨ending, hdied, hbefore⟩ := hended hcomplete q.pid hpid
  obtain ⟨w, hw, hsame, hphase⟩ := hmore.hasEnded ht hbefore
  obtain rfl := (hmore.grouped ht).numbered.eq_of_pid hw (List.mem_map_of_mem hq) hsame
  exact ⟨ending, hphase, hdied⟩

/-- **The children of a launch, after it is over.** -/
theorem Dispatches.children {v : Supervisor Machine} (h : Dispatches as pipes pids v u)
    (hv : Lulls s v) (hu : Reaches (fun _ => False) u t) (hs : s.Registered) (hm : s.host.Grouped)
    (has : ∀ a ∈ as, a.Able) :
    t.Registered ∧ t.host.Grouped ∧ ∃ acts, Children s t as pipes pids acts := by
  obtain ⟨hregistered, hgrouped, ⟨before, hbefore⟩, -⟩ := Reaches.attests hv.reaches hs hm
  obtain ⟨during, hchildren⟩ := h.bears hregistered hgrouped has
  obtain ⟨hregistered', hgrouped', -, -⟩ := Reaches.attests h.reaches hregistered hgrouped
  obtain ⟨hregistered'', hgrouped'', ⟨later, hlater⟩, -⟩ := Reaches.attests hu hregistered' hgrouped'
  exact ⟨hregistered'', hgrouped'', _, (hchildren.head hm hbefore).tail hm has hlater⟩

/-- **A shell that lets no call fail comes back or is lost**, if all deaths have names. -/
theorem Comes.ok_or_lost {σ α : Type} [Host σ] {launching : Assignment → Prop} {s t : Supervisor σ}
    {r : Except Stop α} (h : Comes launching s r t) (hs : s.Accounted)
    (hrefuses : ∀ call (host : σ), Host.refuses call host = none) (hnamed : Named t.journal) :
    (∃ a, r = .ok a) ∨ ∃ loss, r = .error (.lost loss) := by
  cases r with
  | ok a => exact .inl ⟨a, rfl⟩
  | error stop =>
      obtain ⟨u, v, hu, hstop, hv⟩ := h
      have haccounted : u.Accounted := hu.keeps (fun _ _ => Moves.accounted) hs
      -- a death that has no name would still be in the journal at the end
      have hjournal : ∀ e ∈ u.journal, e ∈ t.journal := fun e he =>
        Reaches.keeps (I := fun w => e ∈ w.journal) hv (fun _ _ hmove => hmove.mem_journal)
          (hstop.mem_journal he)
      cases hstop with
      | refused hrefused => simp [hrefuses] at hrefused
      | undecodable hdead hdecode =>
          exact absurd (fun e he => hnamed e (hjournal e he))
            (haccounted.truthful.not_named hdead hdecode)
      | childless hforeground hnil =>
          exact absurd hnil (haccounted.children_ne_nil hforeground)
      | lose | doze | struck => exact .inr ⟨_, rfl⟩
      | relisted _ hregister =>
          exact absurd hregister (register_choosePid_ne_none haccounted.children _)

end Supervisor

/-! ### A pipeline -/

namespace Shell

open Supervisor (Comes Dispatches Enrolled Lulls NewPipes Reaches forkedPids)

/-- A shell on a machine, between two pipelines: every listed job is a child, the children are known
to the machine, and none of them is in the foreground. -/
structure Poised (s : Shell Machine) : Prop where
  accounted : s.toSupervisor.Accounted
  registered : s.toSupervisor.Registered
  grouped : s.host.Grouped
  foreground : s.jobs.hasForeground = false

/-- A shell without children on a machine without processes. -/
theorem Poised.initial {s : Shell Machine} {m : Machine} (hs : s.toSupervisor = { host := m })
    (hprocesses : m.processes = []) (hdeaths : m.deaths = []) (hpid : 0 < m.nextPid)
    (hshell : m.shellPid < m.nextPid) : s.Poised := by
  have hgrouped : m.Grouped := .of_nil hprocesses hdeaths hshell
  refine ⟨?_, ?_, ?_, ?_⟩
  · rw [hs]
    exact Supervisor.accounted_initial m
  · rw [hs]
    exact ⟨hpid, nofun, hgrouped.numbered⟩
  · rw [hs]
    exact hgrouped
  · rw [hs]
    rfl

/-- **The stages of a pipeline, each with its own fate**: what a run has left at `t` that began at
`s`, with the file from which the first command reads, the numbers of the pipes, the ids of the
children, and what processes and the shell have done meanwhile. -/
structure Undisturbed (p : Pipeline) (s t : Shell Machine) (stdin : OpenFile) (pipes : List Nat)
    (pids : List Int) (acts : List (Int × Machine.Deed)) : Prop where
  /-- A child is forked and listed for each command, and for nothing else. -/
  launched : ∃ v u, Lulls s.toSupervisor v ∧ Enrolled p.jobClass p.commands pids v u ∧
    Reaches (fun _ => False) u t.toSupervisor
  forked : forkedPids t.journal = forkedPids s.journal ++ pids
  /-- There is a new pipe between each two commands. -/
  length : pipes.length = p.commands.length - 1
  fresh : NewPipes s.host pipes
  /-- Each command reads the pipe that the one before it writes. -/
  wired : List.Forall₂ (fun files a => a.connected.file? 0 = some files.1 ∧
      (s.descriptors.isOpen 1 = true → a.connected.file? 1 =
        files.2.elim (s.descriptors.file? 1) fun pipe => some (.pipeWriter pipe)))
    ((stdin :: pipes.map .pipeReader).zip (pipes.map some ++ [none]))
    (p.seated s.descriptors s.place stdin pipes)
  /-- Whatever the other commands are, in place of those that cannot be launched, a command is given
  the same. -/
  alike : ∀ p' : Pipeline, p'.background = p.background → ∀ i : Nat,
    p'.commands[i]? = p.commands[i]? → (p'.seated s.descriptors s.place stdin pipes)[i]? =
      (p.seated s.descriptors s.place stdin pipes)[i]?
  story : Story s.host acts t.host
  /-- Now and whatever happens later, all that has been told to the diagnostics is what has been told
  by one or another, and every child has its own fate, by what it has done itself.  Those of the
  foreground have ended when the shell goes on. -/
  stages : ∀ more m, Story t.host more m →
    m.diagnostics = s.host.diagnostics ++ (acts ++ more).flatMap (·.2.text) ∧
      List.Forall₂ (fun pid a => ∃ q ∈ m.processes, q.pid = pid ∧
          a.Fate s.host.environment q (deedsOf pid (acts ++ more)) ∧ a.Proceeds m q ∧
          (p.background = false →
            ∃ ending, q.phase = .ended ending ∧ .died pid ending ∈ t.journal))
        pids (p.seated s.descriptors s.place stdin pipes)
  descriptors : t.descriptors = s.descriptors
  exitRequested : t.exitRequested = s.exitRequested
  poised : t.Poised

variable {p : Pipeline} {s t : Shell Machine} {stdin : OpenFile} {r : Except Stop Unit}

/-- **The shell comes back from its children**, if those of the foreground end. -/
theorem runForked_returns (hbuiltin : p.builtin? = none) (hp : p.commands ≠ []) (hs : s.Poised)
    (hrun : (runForked p).run s = (r, t)) (hfile : s.descriptors.file? 0 = some stdin)
    (hroom : s.descriptors.room ≠ 0) (hroom' : p.commands.length ≤ 1 ∨ 3 ≤ s.descriptors.room)
    (hnamed : Named t.journal)
    (hends : ∀ l ∈ lives (t.journal.drop s.journal.length), l.jobClass = .foreground →
      l.ending ≠ none) : r = .ok () := by
  have hbecomes := runForked_becomes hfile hroom hroom' s rfl
  rw [hrun] at hbecomes
  obtain ⟨events, hevents, horderly⟩ :=
    runForked_orderly hbuiltin hp hs.accounted hs.foreground hrun
  rw [hevents, List.drop_left] at hends
  rcases hbecomes.comes.ok_or_lost hs.accounted (fun _ _ => rfl) hnamed with
    ⟨⟨⟩, rfl⟩ | ⟨loss, rfl⟩
  · rfl
  · obtain ⟨l, hl, hclass, hnone⟩ := horderly.lost hbuiltin loss rfl
    exact absurd hnone (hends l hl hclass)

/-- **The children of a foreground pipeline have ended** when it comes to its end. -/
theorem runForked_died (hbuiltin : p.builtin? = none) (hp : p.commands ≠ []) (hs : s.Poised)
    (hrun : (runForked p).run s = (.ok (), t)) (hforeground : p.background = false)
    (hreaches : Reaches (fun _ => True) s.toSupervisor t.toSupervisor) {pids : List Int}
    (hforked : forkedPids t.journal = forkedPids s.journal ++ pids) :
    ∀ pid ∈ pids, ∃ ending, .died pid ending ∈ t.journal ∧ t.host.HasEnded pid ending := by
  intro pid hpid
  obtain ⟨events, hevents, horderly⟩ :=
    runForked_orderly hbuiltin hp hs.accounted hs.foreground hrun
  replace hevents : t.journal = s.journal ++ events := hevents
  -- the children are the lives of this run, and each of these is over
  have hpids : pids = (lives events).map (·.pid) := by
    rw [lives_pids]
    rw [hevents, Supervisor.forkedPids_append] at hforked
    exact (List.append_cancel_left hforked).symm
  rw [hpids] at hpid
  obtain ⟨l, hl, rfl⟩ := List.mem_map.1 hpid
  obtain ⟨-, hended⟩ := (horderly.complete hbuiltin hforeground rfl).1 l hl
  obtain ⟨ending, hending⟩ := Option.isSome_iff_exists.1 hended
  have hdied := died_of_ending hl hending
  obtain ⟨-, -, -, events', hevents', htrue⟩ := hreaches.attests hs.registered hs.grouped
  obtain rfl : events = events' := List.append_cancel_left (hevents.symm.trans hevents')
  exact ⟨ending, hevents ▸ List.mem_append_right _ hdied, htrue _ hdied⟩

theorem runPipeline_eq {σ : Type} [Host σ] (hbuiltin : p.builtin? = none) :
    (runPipeline p : ShellM σ Unit) = runForked p := by
  unfold runPipeline
  rw [hbuiltin]

/-- A run that comes to its end leaves the stages undisturbed. -/
theorem undisturbed_of_run (hbuiltin : p.builtin? = none) (hp : p.commands ≠ []) (hs : s.Poised)
    (hrun : (runForked p).run s = (.ok (), t)) (hfile : s.descriptors.file? 0 = some stdin)
    (hdiagnostics : s.descriptors.file? 2 = some .diagnostics) (hroom : s.descriptors.room ≠ 0)
    (hroom' : p.commands.length ≤ 1 ∨ 3 ≤ s.descriptors.room) (hnamed : Named t.journal) :
    ∃ pipes pids acts, Undisturbed p s t stdin pipes pids acts := by
  have hbecomes := runForked_becomes hfile hroom hroom' s rfl
  have hdispatched := runForked_dispatches (fun _ _ => rfl) hs.accounted hfile hroom hroom' s rfl
  have hclear := runPipeline_clear p s hs.foreground
  rw [runPipeline_eq hbuiltin] at hclear
  rw [hrun] at hbecomes hdispatched hclear
  -- a run to the end has launched everybody: a lull, the launches, and the waiting
  obtain ⟨v, pipes, pids, u, hv, hlength, hdispatches, hcomes⟩ := hdispatched hnamed
  replace hcomes : Reaches (fun _ => False) u t.toSupervisor := hcomes
  have hstdin : s.descriptors.isOpen 0 = true := Option.isSome_of_eq_some hfile
  have hcount : p.commands.length = pipes.length + 1 := by
    have hpositive := List.length_pos_iff.2 hp
    omega
  have henrolled := (enrolls_of_dispatches hlength hdispatches).enrolled
  have hforked : forkedPids t.journal = forkedPids s.journal ++ pids := by
    rw [Comes.forkedPids (r := .ok ()) hcomes, henrolled.forked, hv.untouched.forked]
  have hable : ∀ a ∈ p.seated s.descriptors s.place stdin pipes, a.Able :=
    p.seated_able hcount hstdin hdiagnostics
  obtain ⟨hregistered, hgrouped, acts, hchildren⟩ :=
    hdispatches.children hv hcomes hs.registered hs.grouped hable
  have hreaches := (hv.reaches.trans hdispatches.reaches).trans
    (Relation.ReflTransGen.mono (fun _ _ hmove => hmove.mono fun _ => False.elim) _ _ hcomes)
  exact ⟨pipes, pids, acts, {
    launched := ⟨v, u, hv, henrolled, hcomes⟩
    forked := hforked
    length := hlength
    fresh := hchildren.fresh
    wired := p.seated_wired hcount hstdin hdiagnostics
    alike := fun p' hbackground i hcommand => Pipeline.seated_alike hbackground hcommand
    story := hchildren.story
    stages := fun more m hmore => hchildren.fates hs.grouped hable hgrouped
      (runForked_died hbuiltin hp hs hrun · hreaches hforked) hmore
    descriptors := hbecomes.after.1
    exitRequested := hbecomes.exitRequested
    poised := {
      accounted := Reaches.keeps hreaches (fun _ _ => Supervisor.Moves.accounted) hs.accounted
      registered := hregistered
      grouped := hgrouped
      foreground := hclear } }⟩

/-- **Stages that cannot be launched disturb no others.**  A shell on a machine, between two
pipelines, runs a pipeline of any length that is not a builtin alone, in the foreground or in the
background.  Its standard input is open and there are enough free descriptors; all deaths are exits
or come by signals with names, and the children of the foreground end.  Any of the commands may have
a NUL byte, a redirection that cannot be opened or a program that cannot be run.

* The shell comes to the end of the pipeline, and the pipelines after it are run.
* For each command a child is forked and listed, and each one is given its place in the pipeline,
  which depends on no other command.
* Each child has a fate of its own, by what it has done itself.  If its program is run, it has done
  nothing before that but to meet refusals of its search, and it has its own words, its place and the
  files of its redirections.  If it cannot be launched, it has met the refusals for that, has told its
  reason to the diagnostics of the shell, once, and ends with the status of a failed launch; its
  descriptors are closed with it.  Only a signal may end a child before that.  A child that is not
  stopped gets on towards its program, or towards its end, unless it waits for a fifo to be opened.
* The shell is left between two pipelines again, with the same descriptors. -/
theorem runPipeline_undisturbed (hbuiltin : p.builtin? = none)
    (hroom : p.commands.length = 1 ∧ 1 ≤ s.descriptors.room ∨
      2 ≤ p.commands.length ∧ 3 ≤ s.descriptors.room)
    (hs : s.Poised) (hstdin : s.descriptors.file? 0 = some stdin)
    (hdiagnostics : s.descriptors.file? 2 = some .diagnostics)
    (hnamed : Named ((runPipeline p).run s).2.journal)
    (hends : ∀ l ∈ lives (((runPipeline p).run s).2.journal.drop s.journal.length),
      l.jobClass = .foreground → l.ending ≠ none) :
    let after := (runPipeline p).run s
    after.1 = .ok () ∧
      (s.exitRequested = none → ∀ ps, (execute (p :: ps)).run s = (execute ps).run after.2) ∧
      ∃ pipes pids acts, Undisturbed p s after.2 stdin pipes pids acts := by
  intro after
  have hcommands : p.commands ≠ [] := List.length_pos_iff.1 (by omega)
  rcases hrun : (runPipeline p).run s with ⟨r, t⟩
  have hafter : after = (r, t) := hrun
  have hforked : (runForked p).run s = (r, t) := by rwa [runPipeline_eq hbuiltin] at hrun
  rw [hrun] at hnamed hends
  obtain rfl : r = .ok () := runForked_returns hbuiltin hcommands hs hforked hstdin (by omega)
    (by omega) hnamed hends
  obtain ⟨pipes, pids, acts, hundisturbed⟩ := undisturbed_of_run hbuiltin hcommands hs hforked
    hstdin hdiagnostics (by omega) (by omega) hnamed
  rw [hafter]
  refine ⟨rfl, fun hexit ps => ?_, pipes, pids, acts, hundisturbed⟩
  have hnone : t.exitRequested = none := hundisturbed.exitRequested.trans hexit
  rw [execute_cons, andThen, hrun]
  simp [hnone]

/-- A pipeline of which three commands cannot be launched, each for another reason. -/
def hindered : Pipeline :=
  ⟨[⟨[0], [], []⟩, ⟨utf8 "true", [], [⟨.input, utf8 "missing"⟩]⟩, ⟨utf8 "true", [], []⟩,
    ⟨utf8 "nowhere", [], []⟩], false⟩

/-- Three commands that cannot be launched, and one that can. -/
theorem runPipeline_undisturbed_four :
    let after := (runPipeline hindered).run orderly
    after.1 = .ok () ∧
      (∃ pipes pids acts, pids.length = 4 ∧
        Undisturbed hindered orderly after.2 (.pipeReader 0) pipes pids acts) ∧
      after.2.host.diagnostics = utf8 "nul byte found in provided data at position: 0\n" ++
        utf8 "missing: no such file or directory\n" ++
          utf8 "nowhere: no such file or directory\n" := by
  intro after
  have hpoised : orderly.Poised := .initial rfl rfl rfl (by decide) (by decide)
  have hstdin : orderly.descriptors.file? 0 = some (.pipeReader 0) := rfl
  obtain ⟨hok, -, pipes, pids, acts, hundisturbed⟩ :=
    runPipeline_undisturbed (p := hindered) (s := orderly) rfl (.inr (by decide)) hpoised hstdin rfl
      (by decide +kernel) (by decide +kernel)
  obtain ⟨v, u, -, henrolled, -⟩ := hundisturbed.launched
  exact ⟨hok, ⟨pipes, pids, acts, henrolled.length, hundisturbed⟩, by decide +kernel⟩

end Shell

end JobShell
