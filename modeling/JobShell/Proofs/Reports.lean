/-
**Reports count the children of the background, no more and no less.**

A session runs lines, reports at any points between them, and reports once more when all children
have ended.  Then every command of a background pipeline that was run has exactly one line in one of
the reports, with the process id of its child and the end that this child had.  No child of a
foreground pipeline has a line.  It makes no difference whether a child was reaped by the launch of a
later pipeline, by the wait for one, or by a report.

Main definitions:

* `JobShell.Shell.Turn.answer`, `JobShell.Shell.reported` — a turn and a session in which nothing
  fails, with the reports that are made;
* `JobShell.Shell.executed` — the pipelines that are run in a session;
* `JobShell.Pipeline.forks` — the classes of the children that a pipeline is run by.

Main results:

* `JobShell.Shell.execute_forks` — one child is forked for each command that is run by a child;
* `JobShell.Shell.reported_tallies` — what a session keeps, at any point of it;
* `JobShell.Shell.reported_exact` — **the reports of a session whose children have all ended.**
-/

import JobShell.Proofs.Job.Dues
import JobShell.Proofs.Pipeline.Completion
import Mathlib.Algebra.Ring.Nat
import Mathlib.Data.Prod.Basic

set_option autoImplicit false

namespace JobShell

open Supervisor (Books Chronicle Proceeds Reaches)

/-! ### The children of a pipeline -/

/-- The classes of the children that a pipeline is run by: none if it is a builtin alone, and one for
each command otherwise. -/
def Pipeline.forks (p : Pipeline) : List JobClass :=
  if p.builtin?.isSome then [] else List.replicate p.commands.length p.jobClass

/-- A background pipeline is run by children, and it is the only kind with children of the
background. -/
theorem Pipeline.background_forks (p : Pipeline) :
    (p.forks.filter (· = .background)).length = if p.background then p.commands.length else 0 := by
  unfold Pipeline.forks
  cases hbackground : p.background with
  | true =>
      have hnone : p.builtin? = none := by
        rw [← Option.not_isSome_iff_eq_none, Pipeline.builtin?_isSome_iff]
        rintro ⟨command, -, -, hforeground, -⟩
        simp [hbackground] at hforeground
      simp [hnone, Pipeline.jobClass, hbackground]
  | false =>
      split <;> simp [Pipeline.jobClass, hbackground]

/-- The children of the background that pipelines are run by are as many as the commands of the
background pipelines among them. -/
theorem background_forks_flatMap (ps : List Pipeline) :
    ((ps.flatMap Pipeline.forks).filter (· = .background)).length =
      ((ps.filter (·.background)).flatMap (·.commands)).length := by
  induction ps with
  | nil => rfl
  | cons p ps ih =>
      rw [List.flatMap_cons, List.filter_append, List.length_append, p.background_forks, ih,
        List.filter_cons]
      cases p.background with
      | true => simp
      | false => simp

/-- The lives of the background are as many as the children of the background that were forked. -/
theorem length_background_lives (journal : List Event) :
    ((lives journal).filter (·.jobClass = .background)).length =
      ((forkedClasses journal).filter (· = .background)).length := by
  rw [← lives_classes, List.filter_map, List.length_map]
  rfl

namespace Shell

variable {σ α : Type} {s : Shell σ}

/-- If a computation that begins at `s` comes to its end, children of these classes have been
forked. -/
def Forks (classes : List JobClass) (s : Shell σ) : Except Stop α → Shell σ → Prop :=
  OkOr (fun _ t => forkedClasses t.journal = forkedClasses s.journal ++ classes) fun _ _ => True

variable [Host σ]

/-- What launches nothing forks nothing. -/
theorem forks_of_proceeds {body : ShellM σ α}
    (h : Ensures (· = s) body (ProceedsOn (fun _ => False) s)) :
    Ensures (· = s) body (Forks [] s) := by
  refine h.post ?_
  rintro (stop | _) t ht
  · trivial
  · exact (Proceeds.forkedClasses ht).trans (List.append_nil _).symm

theorem runPipeline_forks {p : Pipeline} (hp : p.commands ≠ []) :
    Ensures (· = s) (runPipeline p) (Forks p.forks s) := by
  unfold runPipeline Pipeline.forks
  cases hbuiltin : p.builtin? with
  | some found =>
      refine (runBuiltin_confined found.1 found.2).post ?_
      rintro (stop | _) t ⟨-, hconfined⟩
      · trivial
      · have hjournal : t.journal = s.journal ++ [.builtin found.2.name] := hconfined.journal
        change forkedClasses t.journal = _
        rw [hjournal, forkedClasses_append]
        rfl
  | none =>
      refine (runForked_finishes hp s).post ?_
      rintro (stop | _) t ht
      · trivial
      · exact ht.1

/-- **One child is forked for each command that is run by a child.** -/
theorem execute_forks {ps : List Pipeline} (hps : ∀ p ∈ ps, p.commands ≠ []) :
    Ensures (· = s) (execute ps)
      (Forks (((stints ps s).map (·.pipeline)).flatMap Pipeline.forks) s) := by
  induction ps generalizing s with
  | nil =>
      refine Ensures.ofPure ?_
      rintro t rfl
      exact (List.append_nil _).symm
  | cons p ps ih =>
      rw [List.forall_mem_cons] at hps
      rintro s rfl
      rw [execute_cons, andThen, stints]
      rcases hrun : (runPipeline p).run s with ⟨stop | _, t⟩
      · trivial
      have hfirst : forkedClasses t.journal = forkedClasses s.journal ++ p.forks :=
        (runPipeline_forks hps.1).run hrun
      by_cases hexit : t.exitRequested.isSome
      · simpa [Forks, OkOr, hexit] using hfirst
      · have hrest := ih hps.2 t rfl
        rcases hexecute : (execute ps).run t with ⟨stop | _, u⟩
        · simp [Forks, OkOr, hexit, hexecute]
        · rw [hexecute] at hrest
          simp only [Forks, OkOr, hfirst] at hrest
          simp [Forks, OkOr, hexit, hexecute, hrest]

/-! ### Sessions in which nothing fails -/

namespace Turn

/-- Takes a turn; gives the report, if the turn makes one. -/
def answer : Turn → ShellM σ (List (List Job))
  | .line text => do
    runLine text
    return []
  | .execute pipelines => do
    Shell.execute pipelines
    return []
  | .report => do
    let jobs ← Shell.report
    return [jobs]
  | .pause => do
    supervise fun held => Supervisor.drift held
    return []

end Turn

/-- Takes turns in order; gives the reports.  Nothing comes after a turn that fails. -/
def reported : List Turn → ShellM σ (List (List Job))
  | [] => return []
  | turn :: turns => do
    let first ← turn.answer
    let rest ← reported turns
    return first ++ rest

/-- The pipelines that are run when turns are taken in order. -/
def executed : List Turn → Shell σ → List Pipeline
  | [], _ => []
  | turn :: turns, s =>
    (stints turn.pipelines s).map (·.pipeline) ++ executed turns (turn.answer.run s).2

/-! ### What a session keeps -/

variable {s₀ : Supervisor σ} {handed : List Job}

/-- What turns come to that are taken from `s`, in which some pipelines are run.  If nothing fails,
the reports are entered into the books, and as many children have been forked as there were commands
to be run by children. -/
def Tallies (s₀ : Supervisor σ) (handed : List Job) (s : Shell σ) (pipelines : List Pipeline) :
    Except Stop (List (List Job)) → Shell σ → Prop :=
  OkOr (fun reports t => Books s₀ (handed ++ reports.flatten) t.toSupervisor ∧
    forkedClasses t.journal = forkedClasses s.journal ++ pipelines.flatMap Pipeline.forks)
    fun _ _ => True

/-- A turn that makes no report. -/
theorem tallies_of_proceeds {body : ShellM σ Unit} {pipelines : List Pipeline}
    (hproceeds : Ensures (· = s) body (ProceedsOn (fun _ => True) s))
    (hforks : Ensures (· = s) body (Forks (pipelines.flatMap Pipeline.forks) s))
    (h₀ : s₀.children = []) (hbooks : Books s₀ handed s.toSupervisor) :
    Ensures (· = s) (do body; return []) (Tallies s₀ handed s pipelines) := by
  refine Ensures.bind _ (hproceeds.and hforks) (fun _ => Ensures.ofPure ?_) fun _ _ _ => trivial
  rintro t ⟨hproceeds, hforks⟩
  refine ⟨?_, hforks⟩
  rw [List.flatten_nil, List.append_nil]
  exact Reaches.books (Proceeds.reaches hproceeds) h₀ hbooks

/-- A line forks children for the pipelines of its text. -/
theorem runLine_forks (text : Bytes) :
    Ensures (· = s) (runLine text)
      (Forks (((stints (pipelinesOf text) s).map (·.pipeline)).flatMap Pipeline.forks) s) := by
  have hcommands := pipelinesOf_commands text
  unfold runLine
  unfold pipelinesOf at hcommands ⊢
  cases hline : parse text >>= Line.validate with
  | ok ps =>
      rw [hline] at hcommands
      exact execute_forks hcommands
  | error e =>
      exact forks_of_proceeds ((say_spares 2 syntaxError).post fun _ _ => .of_spares)

/-- A report is entered into the books, and it forks nothing. -/
theorem report_books (h₀ : s₀.children = []) (hbooks : Books s₀ handed s.toSupervisor) :
    Ensures (· = s) report
      (OkOr (fun jobs t => Books s₀ (handed ++ jobs) t.toSupervisor ∧ t.jobs.completed = [] ∧
          forkedClasses t.journal = forkedClasses s.journal)
        fun _ _ => True) := by
  refine Ensures.supervise ?_
  rintro s rfl
  have hcomes := Supervisor.ensures_of_reaches
    (@Supervisor.collectCompleted_comes σ _ (fun _ => False) s.toSupervisor s.descriptors)
  refine ((Supervisor.collectCompleted_books s.descriptors h₀ hbooks).and hcomes).post ?_
  rintro (stop | jobs) t ⟨hbooks, hcomes⟩
  · trivial
  · obtain ⟨u, hreaches, -, ht⟩ := hcomes
    have hforks : forkedClasses u.journal = forkedClasses s.journal :=
      Proceeds.forkedClasses (r := (.ok ⟨⟩ : Except Stop Unit)) (.inl hreaches)
    have hjournal : t.journal = u.journal := by rw [ht]
    exact ⟨hbooks.1, hbooks.2, (congrArg forkedClasses hjournal).trans hforks⟩

theorem report_settles :
    Ensures (fun s : Shell σ => livingPids s.children = []) report
      (OkOr (fun _ t => t.children = []) fun _ _ => True) := by
  refine Ensures.supervise fun s hs => ?_
  refine ((Supervisor.collectCompleted_settles s.descriptors).pre ?_).post ?_
  · rintro _ rfl
    exact hs
  · rintro (stop | jobs) t ht
    · trivial
    · exact ht

/-- **One turn**, whichever it is. -/
theorem Turn.answer_tallies (turn : Turn)
    (hturn : ∀ ps, turn = .execute ps → ∀ p ∈ ps, p.commands ≠ []) (h₀ : s₀.children = [])
    (hbooks : Books s₀ handed s.toSupervisor) :
    Ensures (· = s) turn.answer
      (Tallies s₀ handed s ((stints turn.pipelines s).map (·.pipeline))) := by
  cases turn with
  | line text =>
      exact tallies_of_proceeds (runLine_proceeds text fun _ _ _ _ => trivial) (runLine_forks text)
        h₀ hbooks
  | execute ps =>
      exact tallies_of_proceeds (execute_proceeds ps fun _ _ _ _ => trivial)
        (execute_forks (hturn ps rfl)) h₀ hbooks
  | report =>
      refine Ensures.bind _ (report_books h₀ hbooks) (fun jobs => Ensures.ofPure ?_)
        fun _ _ _ => trivial
      rintro t ⟨hbooks, -, hforks⟩
      refine ⟨by simpa using hbooks, ?_⟩
      simpa [Turn.pipelines, stints] using hforks
  | pause =>
      have hdrift : ∀ launching, Ensures (· = s)
          (supervise fun held => Supervisor.drift held : ShellM σ Unit)
          (ProceedsOn launching s) := by
        intro launching
        refine supervise_proceeds fun held => Ensures.ofModify fun t ht => ?_
        exact ht.tail (.drift held t)
      exact tallies_of_proceeds (hdrift _) (forks_of_proceeds (hdrift _)) h₀ hbooks

/-- **A session keeps the books**, at any point of it. -/
theorem reported_tallies {turns : List Turn}
    (hturns : ∀ ps, .execute ps ∈ turns → ∀ p ∈ ps, p.commands ≠ []) (h₀ : s₀.children = [])
    (hbooks : Books s₀ handed s.toSupervisor) :
    Ensures (· = s) (reported turns) (Tallies s₀ handed s (executed turns s)) := by
  induction turns generalizing s handed with
  | nil =>
      refine Ensures.ofPure ?_
      rintro t rfl
      exact ⟨by simpa using hbooks, by simp [executed]⟩
  | cons turn turns ih =>
      have hturn := turn.answer_tallies (fun ps hps => hturns ps (by simp [hps])) h₀ hbooks
      rintro s rfl
      rw [reported, run_bind]
      rcases hrun : turn.answer.run s with ⟨stop | first, t⟩
      · trivial
      obtain ⟨hbooks', hforks⟩ := hturn.run hrun
      have hrest := ih (fun ps hps => hturns ps (List.mem_cons_of_mem _ hps)) hbooks'
      refine Ensures.bind _ hrest (fun rest => Ensures.ofPure ?_) (fun _ _ _ => trivial) t rfl
      rintro u ⟨hbooks'', hforks'⟩
      refine ⟨by simpa using hbooks'', ?_⟩
      rw [hforks', hforks, executed, hrun, List.flatMap_append, List.append_assoc]

/-- **Reports count the children of the background, no more and no less.**  A session of lines,
reports and pauses from a new shell, in which nothing fails, is followed by one more report when no
child lives.  This is so on every host: whichever children end when, and whichever operation reaps
them.

* The counts of all reports sum up to the number of commands of the background pipelines that were
  run, which is the number of children that were forked in the background.
* Every child has ended and has been reaped.
* The lines of the reports are those of the children of the background, in some order: each has one
  line, with its own process id and its own end, and no child of the foreground has one.

The pipelines of a line have commands; those that are run directly are to have some. -/
theorem reported_exact (hs : s.Newborn) {turns : List Turn}
    (hturns : ∀ ps, .execute ps ∈ turns → ∀ p ∈ ps, p.commands ≠ []) {reports : List (List Job)}
    {t u : Shell σ} (hrun : (reported turns).run s = (.ok reports, t))
    (hended : livingPids t.children = []) {last : List Job}
    (hlast : report.run t = (.ok last, u)) :
    let background := (lives u.journal).filter (·.jobClass = .background)
    let commands := ((executed turns s).filter (·.background)).flatMap (·.commands)
    ((reports ++ [last]).map List.length).sum = commands.length ∧
      background.length = commands.length ∧
      (∀ l ∈ lives u.journal, l.Over) ∧
      ((reports ++ [last]).flatten.map fun job => some (job.pid, job.completionMessage)).Perm
        (background.map Life.notice?) := by
  intro background commands
  obtain ⟨hbooks, hforks⟩ := (reported_tallies hturns hs.children
    (Books.initial hs.children hs.jobs hs.journal)).run hrun
  obtain ⟨hbooks', hcompleted, hforks'⟩ := (report_books hs.children hbooks).run hlast
  have hchildren : u.children = [] := (report_settles.pre fun v hv => hv ▸ hended).run hlast
  obtain ⟨hover, hlines⟩ := hbooks'.settled hs.children hchildren hcompleted
  have hcount : background.length = commands.length := by
    rw [length_background_lives, hforks', hforks, hs.journal, ← background_forks_flatMap]
    rfl
  have hhanded : [] ++ reports.flatten ++ last = (reports ++ [last]).flatten := by simp
  rw [hhanded] at hlines
  refine ⟨?_, hcount, hover, hlines⟩
  calc ((reports ++ [last]).map List.length).sum
      = ((reports ++ [last]).flatten.map
          fun job => some (job.pid, job.completionMessage)).length := by
        rw [List.length_map, List.length_flatten]
    _ = (background.map Life.notice?).length := hlines.length_eq
    _ = commands.length := by rw [List.length_map, hcount]

/-- A session in which the waits for later pipelines reap the children of the background.  The last
of these has the process id that the first one had. -/
theorem reported_exact_waits :
    let turns := [Turn.line (utf8 "a | b &"), .line (utf8 "c"), .report, .line (utf8 "d & e; f")]
    let after := (reported turns).run (Fated.shell (.exited 3))
    let final := report.run after.2
    let job : Int → Job := fun pid => ⟨pid, .background, .reaped (.exited pid 3)⟩
    after.1 = .ok [[job 1, job 2]] ∧ final.1 = .ok [job 1] ∧
      (((executed turns (Fated.shell (.exited 3))).filter (·.background)).flatMap
        (·.commands)).length = 3 ∧
      ([job 1, job 2, job 1].map fun job => some (job.pid, job.completionMessage)).Perm
        (((lives final.2.journal).filter (·.jobClass = .background)).map Life.notice?) := by
  intro turns after final job
  have hnewborn : (Fated.shell (.exited 3)).Newborn := ⟨rfl, rfl, rfl⟩
  have hturns : ∀ ps, Turn.execute ps ∈ turns → ∀ p ∈ ps, p.commands ≠ [] := by simp [turns]
  obtain ⟨hafter, hended, hfinal⟩ : after.1 = .ok [[job 1, job 2]] ∧
      livingPids after.2.children = [] ∧ final.1 = .ok [job 1] := by
    decide +kernel
  have hrun := Prod.fst_eq_iff.1 hafter
  have hlast := Prod.fst_eq_iff.1 hfinal
  have hexact := reported_exact hnewborn hturns hrun hended hlast
  exact ⟨hafter, hfinal, hexact.1.symm, hexact.2.2.2⟩

end Shell

end JobShell
