/-
**A foreground pipeline is complete before anything later starts.**

The pipelines of a line are run one after another.  When the next one begins, every stage of every
foreground pipeline before it has ended and has been reaped, in whatever order the children have
ended and however many children of the background there are.

The wait for a foreground pipeline is for its own stages only.  No wait call is made when they have
all been reaped, and the last thing that happens before the pipeline comes to its end is that the last
of them is reaped.  If the shell does not come back from waiting, it is because one of them lives.
For a background pipeline there is no wait call at all.

Main definitions:

* `JobShell.Shell.Stint`, `JobShell.Shell.stints` — the run of one pipeline, and of each pipeline of
  a line;
* `JobShell.Shell.Stint.Orderly` — what happens while a pipeline is run.

Main results:

* `JobShell.Shell.runPipeline_orderly` — one pipeline;
* `JobShell.Shell.execute_orderly` — **the pipelines of a line, one after another.**
-/

import JobShell.Proofs.Line.WellFormed
import JobShell.Proofs.Pipeline.Forks
import JobShell.Proofs.Sequencing
import JobShell.Proofs.Session

set_option autoImplicit false

namespace JobShell

namespace Supervisor

variable {σ : Type} [Host σ] {launching : Assignment → Prop} {s₀ s t : Supervisor σ}
  {events : List Event} {α : Type} {r : Except Stop α}

theorem Proceeds.chronicle (h : Proceeds launching s r t) (haccounted : s.Accounted)
    (hchronicle : Chronicle s₀ events s) (hnamed : ∀ e, r = .error (.failed e) → Named t.journal) :
    t.Accounted ∧ ∃ more, Chronicle s₀ (events ++ more) t := by
  rcases h with h | ⟨e, rfl, h⟩
  · exact h.chronicle haccounted hchronicle hnamed
  · exact h.chronicle haccounted hchronicle

/-- The journal only grows. -/
theorem Proceeds.grows (h : Proceeds launching s r t) :
    ∃ events, t.journal = s.journal ++ events := by
  have hadds : Adds (fun _ => True) s t := by
    refine Proceeds.keeps (I := fun u => Adds (fun _ => True) s u) h ?_ ?_ (.refl s)
    · exact fun u v hmove hu => hu.trans (hmove.adds.mono fun _ _ => trivial)
    · exact fun u stop v hstop hu => hu.trans (hstop.adds.mono fun _ _ => trivial)
  obtain ⟨events, hevents, -⟩ := hadds
  exact ⟨events, hevents⟩

/-- No assertion fails while every listed job is a child. -/
theorem Proceeds.asserts (h : Proceeds launching s r t) (haccounted : s.Accounted) :
    r ≠ .error .assertionFailed := by
  rintro rfl
  rcases h with ⟨s₁, s₂, h₁, hstop, -⟩ | ⟨e, he, -⟩
  · have haccounted₁ : s₁.Accounted := h₁.keeps (fun _ _ => Moves.accounted) haccounted
    cases hstop with
    | relisted _ hregister =>
        exact absurd hregister (register_choosePid_ne_none haccounted₁.children _)
  · cases he

end Supervisor

open Supervisor (Chronicle Proceeds)

/-! ### Pipelines that can be run -/

/-- **Every pipeline of a text that can be run has a command.** -/
theorem Shell.pipelinesOf_commands (text : Bytes) :
    ∀ p ∈ pipelinesOf text, p.commands ≠ [] := by
  unfold pipelinesOf
  cases hps : parse text >>= Line.validate with
  | error e => simp [Except.toOption]
  | ok ps =>
      obtain ⟨line, hline, hvalidate⟩ := exists_of_validate hps
      exact fun p hp => ((wellFormed_of_parse hline).validate hvalidate p hp).ne_nil

namespace Shell

variable {σ : Type} [Host σ]

/-! ### The run of a pipeline -/

/-- The run of a pipeline: the shell before it, its result, and the shell after it. -/
structure Stint (σ : Type) where
  pipeline : Pipeline
  start : Shell σ
  result : Except Stop Unit
  finish : Shell σ

/-- The pipelines that are run when some are to be, one after another: the next one is run if the one
before it has come to its end and the shell has not been asked to exit. -/
def stints : List Pipeline → Shell σ → List (Stint σ)
  | [], _ => []
  | p :: ps, s =>
    match (runPipeline p).run s with
    | (.ok _, t) => ⟨p, s, .ok (), t⟩ :: if t.exitRequested.isSome then [] else stints ps t
    | (.error stop, t) => [⟨p, s, .error stop, t⟩]

/-- Running pipelines ends with the last of them that is run. -/
theorem execute_stints (ps : List Pipeline) (s : Shell σ) :
    (execute ps).run s =
      match (stints ps s).getLast? with
      | none => (.ok (), s)
      | some stint => (stint.result, stint.finish) := by
  induction ps generalizing s with
  | nil => rfl
  | cons p ps ih =>
      rw [execute_cons, andThen, stints]
      rcases (runPipeline p).run s with ⟨stop | _, t⟩
      · rfl
      · simp only
        split_ifs
        · rfl
        · rw [ih t, List.getLast?_cons]
          cases (stints ps t).getLast? <;> rfl

/-- What happens while a pipeline is run, the events being those of its run. -/
structure Stint.Orderly (stint : Stint σ) (events : List Event) : Prop where
  /-- A builtin that runs in the shell is the only event. -/
  inShell : ∀ b command, stint.pipeline.builtin? = some (b, command) →
    events = [.builtin command.name]
  /-- For a background pipeline no wait call is made, and the shell comes back from it. -/
  background : stint.pipeline.background = true →
    .waited ∉ events ∧ ∀ loss, stint.result ≠ .error (.lost loss)
  /-- A wait call is made only while a stage of the pipeline has not been reaped, if all deaths can be
  decoded when a call has failed. -/
  waits : stint.pipeline.builtin? = none →
    (∀ e, stint.result = .error (.failed e) → Named stint.finish.journal) →
      ∀ before after, events = before ++ .waited :: after →
        ∃ l ∈ lives before, l.jobClass = .foreground ∧ l.reaped = false
  /-- A pipeline that comes to its end has a stage for each command. -/
  stages : stint.pipeline.builtin? = none → stint.result = .ok () →
    (lives events).map (·.jobClass) =
      List.replicate stint.pipeline.commands.length stint.pipeline.jobClass
  /-- A foreground pipeline comes to its end with the last of its stages. -/
  complete : stint.pipeline.builtin? = none → stint.pipeline.background = false →
    stint.result = .ok () → (∀ l ∈ lives events, l.Over) ∧
      ∃ status, events.getLast? = some (.reaped status (some .foreground))
  /-- The shell does not come back only while a stage lives. -/
  lost : stint.pipeline.builtin? = none → ∀ loss, stint.result = .error (.lost loss) →
    ∃ l ∈ lives events, l.jobClass = .foreground ∧ l.ending = none
  asserts : stint.result ≠ .error .assertionFailed

/-- A builtin that runs in the shell. -/
theorem runBuiltin_orderly {p : Pipeline} {b : Builtin} {command : Command}
    (hp : p.builtin? = some (b, command)) {s t : Shell σ} {r : Except Stop Unit}
    (hrun : (runBuiltin b command).run s = (r, t)) :
    ∃ events, t.journal = s.journal ++ events ∧ Stint.Orderly ⟨p, s, r, t⟩ events := by
  obtain ⟨hreturns, hconfined⟩ := (runBuiltin_confined b command).run hrun
  have hforeground : p.background = false := by
    obtain ⟨-, -, -, hforeground, -⟩ := Pipeline.builtin?_isSome_iff.1 (Option.isSome_of_eq_some hp)
    exact hforeground
  have hsome : p.builtin? ≠ none := by simp [hp]
  exact ⟨[.builtin command.name], hconfined.journal, {
    inShell := by
      intro b' command' hp'
      obtain ⟨rfl, rfl⟩ : b = b' ∧ command = command' := by simpa [hp] using hp'
      rfl
    background := fun h => absurd h (by simp [hforeground])
    waits := fun h => absurd h hsome
    stages := fun h => absurd h hsome
    complete := fun h => absurd h hsome
    lost := fun h => absurd h hsome
    asserts := by
      rintro (rfl : r = _)
      obtain ⟨-, loss, -, hloss⟩ := hreturns
      cases hloss }⟩

/-- A pipeline that is run by children. -/
theorem runForked_orderly {p : Pipeline} (hbuiltin : p.builtin? = none) (hp : p.commands ≠ [])
    {s t : Shell σ} (haccounted : s.Accounted) (hforeground : s.jobs.hasForeground = false)
    {r : Except Stop Unit} (hrun : (runForked p).run s = (r, t)) :
    ∃ events, t.journal = s.journal ++ events ∧ Stint.Orderly ⟨p, s, r, t⟩ events := by
  have hproceeds : ProceedsOn p.Assigns s r t := (runForked_proceeds p fun _ h => h).run hrun
  have hfinishes : Finishes p s r t := (runForked_finishes hp s).run hrun
  obtain ⟨events, hevents⟩ := Proceeds.grows hproceeds
  -- the chronicle of the run, unless a call has failed because a status was lost
  have hchronicle : (∀ e, r = .error (.failed e) → Named t.journal) →
      Chronicle s.toSupervisor events t.toSupervisor := by
    intro hnamed
    obtain ⟨-, more, hmore⟩ :=
      Proceeds.chronicle hproceeds haccounted (Chronicle.refl hforeground) hnamed
    have heq : events = more := by simpa [hevents] using hmore.journal
    rwa [heq]
  have hstages : r = .ok () →
      forkedClasses events = List.replicate p.commands.length p.jobClass := by
    rintro rfl
    have hforks := hfinishes.1
    rw [hevents, forkedClasses_append] at hforks
    exact List.append_cancel_left hforks
  refine ⟨events, hevents, ?_⟩
  exact {
    inShell := fun b command h => absurd h (by simp [hbuiltin])
    background := by
      intro (hbackground : p.background = true)
      have hclass : p.jobClass = .background := by simp [Pipeline.jobClass, hbackground]
      have hlaunching : ∀ a, p.Assigns a → a.jobClass = .background := fun a ha => ha.2.trans hclass
      obtain ⟨-, events', hevents', hunwaited⟩ :=
        ((runForked_proceeds p hlaunching).run hrun).unwaited hforeground
      obtain rfl : events = events' := by simpa [hevents] using hevents'
      refine ⟨fun hmem => hunwaited _ hmem rfl, ?_⟩
      rintro loss (rfl : r = _)
      exact absurd hfinishes.1 (by simp [hbackground])
    waits := by
      intro _ hnamed before after heq
      exact (hchronicle hnamed).needed before .waited after heq
    stages := by
      intro _ hr
      rw [lives_classes]
      exact hstages hr
    complete := by
      rintro - (hbackground : p.background = false) (rfl : r = _)
      have hclasses := (lives_classes events).trans (hstages rfl)
      have hclass : p.jobClass = .foreground := by simp [Pipeline.jobClass, hbackground]
      have hclear : t.jobs.hasForeground = false :=
        (((runForked_waits hbackground).pre fun _ _ => trivial).run hrun : Clear (.ok ()) t)
      refine ⟨fun l hl => ?_, ?_⟩
      · refine (hchronicle fun _ h => by cases h).over hclear l hl ?_
        have hmem : l.jobClass ∈ (lives events).map (·.jobClass) := List.mem_map_of_mem hl
        rw [hclasses, List.mem_replicate] at hmem
        exact hmem.2.trans hclass
      · obtain ⟨status, hlast⟩ := hfinishes.2 hbackground
        have hne : events ≠ [] := by
          rintro rfl
          simp [lives, hp] at hclasses
        rw [hevents, List.getLast?_append_of_ne_nil _ hne] at hlast
        exact ⟨status, hlast⟩
    lost := by
      rintro - loss (rfl : r = _)
      obtain ⟨-, hlisted, hdead⟩ := hfinishes
      exact (hchronicle fun e he => by cases he).alive hlisted hdead
    asserts := Proceeds.asserts hproceeds haccounted }

/-- **One pipeline**, with the shell before and after it. -/
theorem runPipeline_orderly {p : Pipeline} {s t : Shell σ} (hp : p.commands ≠ [])
    (haccounted : s.Accounted) (hforeground : s.jobs.hasForeground = false)
    {r : Except Stop Unit} (hrun : (runPipeline p).run s = (r, t)) :
    ∃ events, t.journal = s.journal ++ events ∧ Stint.Orderly ⟨p, s, r, t⟩ events := by
  unfold runPipeline at hrun
  cases hbuiltin : p.builtin? with
  | some found =>
      rw [hbuiltin] at hrun
      exact runBuiltin_orderly hbuiltin hrun
  | none =>
      rw [hbuiltin] at hrun
      exact runForked_orderly hbuiltin hp haccounted hforeground hrun

/-- A pipeline that comes to its end leaves every job accounted for, no foreground job listed, and
the chronicle of everything since the beginning. -/
theorem runPipeline_chronicle {s₀ : Supervisor σ} {p : Pipeline} {s t : Shell σ}
    {events : List Event} (haccounted : s.Accounted) (hforeground : s.jobs.hasForeground = false)
    (hchronicle : Chronicle s₀ events s.toSupervisor)
    (hrun : (runPipeline p).run s = (.ok (), t)) :
    t.Accounted ∧ t.jobs.hasForeground = false ∧
      ∃ more, Chronicle s₀ (events ++ more) t.toSupervisor := by
  have hproceeds : ProceedsOn p.Assigns s (.ok ()) t :=
    (runPipeline_proceeds p fun _ h => h).run hrun
  have hclear : t.jobs.hasForeground = false :=
    (((runPipeline_clear p).pre fun _ hu => hu ▸ hforeground).run hrun : Clear (.ok ()) t)
  obtain ⟨haccounted', hmore⟩ :=
    Proceeds.chronicle hproceeds haccounted hchronicle fun _ h => by cases h
  exact ⟨haccounted', hclear, hmore⟩

/-- The same of pipelines one after another, of which some have been run already. -/
theorem stints_orderly {s₀ : Shell σ} {ps : List Pipeline} (hps : ∀ p ∈ ps, p.commands ≠ [])
    {s : Shell σ} {events : List Event} (haccounted : s.Accounted)
    (hforeground : s.jobs.hasForeground = false)
    (hchronicle : Chronicle s₀.toSupervisor events s.toSupervisor) :
    ∀ stint ∈ stints ps s,
      (∃ earlier, stint.start.journal = s₀.journal ++ earlier ∧
        ∀ l ∈ lives earlier, l.jobClass = .foreground → l.Over) ∧
      ∃ during, stint.finish.journal = stint.start.journal ++ during ∧ stint.Orderly during := by
  -- what has come of the earlier pipelines is in `events`
  induction ps generalizing s events with
  | nil => simp [stints]
  | cons p ps ih =>
      rw [List.forall_mem_cons] at hps
      rcases hrun : (runPipeline p).run s with ⟨r, t⟩
      have hfirst : (∃ earlier, s.journal = s₀.journal ++ earlier ∧
          ∀ l ∈ lives earlier, l.jobClass = .foreground → l.Over) ∧
          ∃ during, t.journal = s.journal ++ during ∧ Stint.Orderly ⟨p, s, r, t⟩ during :=
        ⟨⟨events, hchronicle.journal, hchronicle.over hforeground⟩,
          runPipeline_orderly hps.1 haccounted hforeground hrun⟩
      rw [stints, hrun]
      cases r with
      | error stop => simpa using hfirst
      | ok _ =>
          rw [List.forall_mem_cons]
          refine ⟨hfirst, ?_⟩
          split_ifs
          · simp
          · obtain ⟨haccounted', hforeground', more, hmore⟩ :=
              runPipeline_chronicle haccounted hforeground hchronicle hrun
            exact ih hps.2 haccounted' hforeground' hmore

/-- **A foreground pipeline is complete before anything later starts, and children of the background
never delay the shell.**  The shell runs pipelines that have a command each, from a state in which
every listed job is a child and no foreground job is listed.  There may be any number of children of
the background, and children that are not listed; the host decides when each child ends, and how.
For each pipeline that is run:

* when it begins, every foreground stage that has been forked by the pipelines before it has ended
  and has been reaped;
* a builtin that runs in the shell is all that happens, so that the same holds when it runs;
* for a background pipeline no wait call is made, and the shell comes back from it;
* for a foreground pipeline no wait call is made without a stage of it that has not been reaped, where
  all deaths can be decoded if a call has failed; and if the shell does not come back then a stage of
  it has not ended, so that it is never kept waiting by other children;
* if it comes to its end it has as many stages as commands, and those of a foreground pipeline have
  all ended and been reaped, the last of them in the very last event.

The next pipeline is run only if this one has come to its end. -/
theorem execute_orderly {ps : List Pipeline} (hps : ∀ p ∈ ps, p.commands ≠ []) {s : Shell σ}
    (haccounted : s.Accounted) (hforeground : s.jobs.hasForeground = false) :
    (execute ps).run s =
      (match (stints ps s).getLast? with
      | none => (.ok (), s)
      | some stint => (stint.result, stint.finish)) ∧
    ∀ stint ∈ stints ps s,
      (∃ earlier, stint.start.journal = s.journal ++ earlier ∧
        ∀ l ∈ lives earlier, l.jobClass = .foreground → l.Over) ∧
      ∃ during, stint.finish.journal = stint.start.journal ++ during ∧ stint.Orderly during :=
  ⟨execute_stints ps s, stints_orderly hps haccounted hforeground (.refl hforeground)⟩

end Shell

/-! ### A child that lives on -/

/-- A host on which the child that was started last is the first to end. -/
structure Stacked where
  living : List Int := []

namespace Stacked

instance : Host Stacked where
  refuses _ _ := none
  newPipe h := (0, h)
  nextPid _ := 0
  start pid _ h := ⟨pid :: h.living⟩
  write _ _ h := h
  unread _ _ := []
  take _ _ h := h
  enter _ _ _ := .error Errno.noEntry
  pathOf _ _ := .error Errno.noEntry
  kill _ _ _ := .error Errno.noProcess
  drift _ h := ([], h)
  await _ h :=
    match h.living with
    | [] => .error (.stuck, h)
    | pid :: rest => .ok ((pid, .exited 0), ⟨rest⟩)

/-- A shell on that host. -/
def shell : Shell Stacked where
  host := {}
  descriptors := { entries := [(0, .opened 0), (1, .output), (2, .diagnostics)] }
  place := 0
  home := none

end Stacked

namespace Shell

/-- A line in which the second pipeline is over, its last stage first, while the child of the first
one lives on. -/
theorem execute_orderly_stacked :
    let ps := pipelinesOf (utf8 "a & b | c; exit; d")
    (stints ps Stacked.shell).length = 3 ∧
      livingPids ((execute ps).run Stacked.shell).2.children = [1] ∧
      ∀ stint ∈ stints ps Stacked.shell,
        (∃ earlier, stint.start.journal = Stacked.shell.journal ++ earlier ∧
          ∀ l ∈ lives earlier, l.jobClass = .foreground → l.Over) ∧
        ∃ during, stint.finish.journal = stint.start.journal ++ during ∧ stint.Orderly during :=
  ⟨by decide +kernel, by decide +kernel,
    (execute_orderly (pipelinesOf_commands _) (Supervisor.accounted_initial _) rfl).2⟩

end Shell

end JobShell
