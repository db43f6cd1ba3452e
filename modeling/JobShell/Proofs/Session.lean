/-
**Sessions.**

A session runs lines one after another, reports what has ended in the background, and lets time
pass.  A line that fails does not end it.  Nothing happens in it but the steps of the supervisor, so
whatever they keep holds at every point of it: the jobs that are listed are the children that are
outstanding.  A foreground pipeline that comes to its end has waited for its children, and as long
as no line has failed only background jobs are listed between two lines.

Main definitions:

* `JobShell.Supervisor.Regular` — a computation that makes steps only, and stops at no assertion;
* `JobShell.Shell.Turn`, `JobShell.Shell.session` — what a session is made of, and the session;
* `JobShell.Shell.Newborn` — a shell whose supervisor has seen nothing yet.

Main results:

* `JobShell.Shell.runLine_regular`, `JobShell.Shell.runPipeline_clear` — lines and pipelines;
* `JobShell.Shell.session_regular`, `JobShell.Shell.session_clear` — sessions;
* `JobShell.Shell.session_exact` — **at every point of a session the jobs that are listed are the
  children that are outstanding.**
-/

import JobShell.Proofs.Containment
import JobShell.Proofs.Job.Outstanding
import JobShell.Proofs.Running

set_option autoImplicit false

namespace JobShell

/-! ### Computations that make steps only -/

namespace Supervisor

variable {σ : Type} [Host σ] {launching : Assignment → Prop} {s t u : Supervisor σ} {α β : Type}

theorem Reaches.arrives (h : Reaches launching s t) : Arrives launching s t :=
  Relation.ReflTransGen.mono (fun _ _ hmove => Steps.move hmove) s t h

theorem Comes.arrives {r : Except Stop α} (h : Comes launching s r t) : Arrives launching s t := by
  cases r with
  | ok _ => exact Reaches.arrives h
  | error stop =>
      obtain ⟨s₁, s₂, h₁, hstop, h₂⟩ := h
      exact (h₁.arrives.tail (.stop hstop)).trans h₂.arrives

/-- A computation that makes steps only.  If the list is exact when it begins, and all deaths can be
decoded, it does not stop at an assertion. -/
structure Regular (launching : Assignment → Prop) (s : Supervisor σ) (r : Except Stop α)
    (t : Supervisor σ) : Prop where
  arrives : Arrives launching s t
  asserts : s.Exact → Named t.journal → r ≠ .error .assertionFailed

/-- A computation that comes to moves is regular. -/
theorem Comes.regular {r : Except Stop α} (h : Comes launching s r t) :
    Regular launching s r t := by
  refine ⟨h.arrives, fun hs hnamed => ?_⟩
  cases r with
  | ok _ => simp
  | error stop =>
      obtain ⟨s₁, s₂, h₁, hstop, h₂⟩ := h
      have hnamed₂ : Named s₂.journal := h₂.arrives.named hnamed
      have hs₁ : s₁.Exact := h₁.keeps (fun _ _ => Moves.exact) hs
      simpa using (hstop.exact hs₁ hnamed₂).2

theorem Regular.ok {a : α} (h : Arrives launching s t) :
    Regular launching s (.ok a : Except Stop α) t :=
  ⟨h, by simp⟩

theorem Regular.failed {e : ResourceError} (h : Arrives launching s t) :
    Regular launching s (.error (.failed e) : Except Stop α) t :=
  ⟨h, by simp⟩

/-- What has stopped early gives no result of any type. -/
theorem Regular.error {stop : Stop} (h : Regular launching s (.error stop : Except Stop β) t) :
    Regular launching s (.error stop : Except Stop α) t :=
  ⟨h.arrives, by simpa using h.asserts⟩

/-- So is one that may also fail for a reason of which the supervisor knows nothing. -/
theorem Proceeds.regular {r : Except Stop α} (h : Proceeds launching s r t) :
    Regular launching s r t := by
  rcases h with h | ⟨e, rfl, hreaches⟩
  · exact h.regular
  · exact Regular.failed hreaches.arrives

theorem Regular.trans {r : Except Stop α} (h : Arrives launching s t)
    (h' : Regular launching t r u) : Regular launching s r u :=
  ⟨h.trans h'.arrives, fun hs hnamed => h'.asserts (h.exact hs (h'.arrives.named hnamed)) hnamed⟩

end Supervisor

open Supervisor (Arrives Comes Proceeds Regular)

/-! ### Lines and pipelines -/

namespace Shell

variable {σ : Type} [Host σ] {launching : Assignment → Prop} {s : Shell σ} {α β : Type}

/-- The same of a computation on the shell. -/
def RegularOn (launching : Assignment → Prop) (s : Shell σ) (r : Except Stop α) (t : Shell σ) :
    Prop :=
  Regular launching s.toSupervisor r t.toSupervisor

theorem RegularOn.bind {x : ShellM σ β} {f : β → ShellM σ α}
    (hx : Ensures (· = s) x (RegularOn launching s))
    (hf : ∀ b t, Ensures (· = t) (f b) (RegularOn launching t)) :
    Ensures (· = s) (x >>= f) (RegularOn launching s) := by
  refine Ensures.bind _ hx (fun b => Ensures.of_eq fun t ht => ?_) fun _ _ h => Regular.error h
  exact (hf b t).post fun r u hu => Regular.trans ht.arrives hu

theorem RegularOn.ofPure {a : α} :
    Ensures (· = s) (pure a : ShellM σ α) (RegularOn launching s) := by
  refine Ensures.ofPure ?_
  rintro _ rfl
  exact Regular.ok .refl

theorem supervise_regular {body : Descriptors → Supervised σ α}
    (h : ∀ held, Ensures (· = s.toSupervisor) (body held) (Regular launching s.toSupervisor)) :
    Ensures (· = s) (supervise body) (RegularOn launching s) := by
  refine Ensures.supervise ?_
  rintro _ rfl
  exact h _

theorem RegularOn.of_spares {r : Except Stop α} {t : Shell σ} (h : Spares s r t) :
    RegularOn launching s r t :=
  Proceeds.regular (ProceedsOn.of_spares h)

/-- **Running a pipeline by children**, with whatever descriptors, is steps only. -/
theorem runForked_regular (p : Pipeline) (h : ∀ a, p.Assigns a → launching a) :
    Ensures (· = s) (runForked p) (RegularOn launching s) :=
  (runForked_proceeds p h).post fun _ _ => Proceeds.regular

theorem execute_regular (ps : List Pipeline) (h : ∀ p ∈ ps, ∀ a, p.Assigns a → launching a) :
    Ensures (· = s) (execute ps) (RegularOn launching s) :=
  (execute_proceeds ps h).post fun _ _ => Proceeds.regular

theorem runLine_regular (text : Bytes)
    (h : ∀ p ∈ pipelinesOf text, ∀ a, p.Assigns a → launching a) :
    Ensures (· = s) (runLine text) (RegularOn launching s) :=
  (runLine_proceeds text h).post fun _ _ => Proceeds.regular

/-! ### No foreground job is left -/

/-- If there is a result, no foreground job is listed. -/
def Clear : Except Stop α → Shell σ → Prop :=
  OkOr (fun _ t => t.jobs.hasForeground = false) fun _ _ => True

/-- Steps that launch background jobs only list no foreground job. -/
theorem RegularOn.clear {r : Except Stop α} {t : Shell σ} (h : RegularOn launching s r t)
    (hlaunching : ∀ a, launching a → a.jobClass = .background)
    (hs : s.jobs.hasForeground = false) : Clear r t := by
  cases r with
  | ok _ => exact Arrives.background h.arrives hlaunching hs
  | error stop => trivial

omit [Host σ] in
theorem Clear.setSignal {r : Except Stop α} {t : Shell σ} (h : Clear r t) (signal : ChildSignal) :
    Clear r { t with signal := signal } := by
  cases r with
  | ok _ => exact h
  | error stop => trivial

omit [Host σ] in
/-- Whatever has been done, if what comes after it leaves no foreground job. -/
theorem clear_bind {P : Shell σ → Prop} {x : ShellM σ β} {f : β → ShellM σ α}
    (h : ∀ b, Ensures (fun _ => True) (f b) Clear) : Ensures P (x >>= f) Clear :=
  Ensures.bind (fun _ _ => True) (fun _ _ => trivial) h fun _ _ _ => trivial

/-- A foreground pipeline that comes to its end has waited for the foreground. -/
theorem runForked_waits {p : Pipeline} (hp : p.background = false) :
    Ensures (fun _ : Shell σ => True) (runForked p) Clear := by
  have hwait : Ensures (fun _ : Shell σ => True)
      (supervise fun held => Supervisor.waitForeground held) Clear := by
    refine Ensures.supervise fun s _ => ?_
    have hcomes : Ensures (Supervisor.Reaches (fun _ => False) s.toSupervisor)
        (Supervisor.waitForeground s.descriptors) fun r u =>
          Comes (fun _ => False) s.toSupervisor r u ∧
            (r = .ok ⟨⟩ → u.jobs.hasForeground = false) :=
      Supervisor.waitForeground_comes _
    refine (Supervisor.ensures_of_reaches hcomes).post ?_
    rintro (stop | _) u hu
    · trivial
    · exact hu.2 rfl
  refine clear_bind fun input => clear_bind fun previous => Ensures.restoring ?_
  refine Ensures.post ?_ fun r t ht => Clear.setSignal ht _
  refine clear_bind fun _ => clear_bind fun _ => ?_
  rw [if_pos hp]
  exact hwait

/-- **A pipeline that comes to its end leaves no foreground job**, if there was none before. -/
theorem runPipeline_clear (p : Pipeline) :
    Ensures (fun s : Shell σ => s.jobs.hasForeground = false) (runPipeline p) Clear := by
  unfold runPipeline
  cases p.builtin? with
  | some found =>
      refine Ensures.of_eq fun s hs => (runBuiltin_spares found.1 found.2).post fun r t ht => ?_
      exact (RegularOn.of_spares ht).clear (fun _ => False.elim) hs
  | none =>
      by_cases hp : p.background = false
      · exact (runForked_waits hp).pre fun _ _ => trivial
      · have hclass : p.jobClass = .background := by
          rw [Bool.not_eq_false] at hp
          simp [Pipeline.jobClass, hp]
        refine Ensures.of_eq fun s hs => (runForked_regular p fun _ h => h).post fun r t ht => ?_
        exact ht.clear (fun a ha => ha.2.trans hclass) hs

theorem execute_clear (ps : List Pipeline) :
    Ensures (fun s : Shell σ => s.jobs.hasForeground = false) (execute ps) Clear := by
  induction ps with
  | nil => exact Ensures.ofPure fun _ hs => hs
  | cons p ps ih =>
      refine Ensures.bind Clear (runPipeline_clear p) ?_ fun _ _ _ => trivial
      refine fun _ => Ensures.get_bind fun s hs => ?_
      split
      · exact Ensures.ofPure fun t ht => ht ▸ hs
      · exact ih.pre fun t ht => ht ▸ hs

/-! ### Lines and reports -/

theorem runLine_clear (text : Bytes) :
    Ensures (fun s : Shell σ => s.jobs.hasForeground = false) (runLine text) Clear := by
  unfold runLine
  cases parse text >>= Line.validate with
  | ok ps => exact execute_clear ps
  | error e =>
      refine Ensures.of_eq fun s hs => (say_spares 2 syntaxError).post fun r t ht => ?_
      exact (RegularOn.of_spares ht).clear (fun _ => False.elim) hs

/-- A report reaps what is dead and hands out what is completed. -/
theorem report_regular : Ensures (· = s) report (RegularOn launching s) := by
  refine supervise_regular fun held => ?_
  have hcomes := @Supervisor.collectCompleted_comes σ _ launching s.toSupervisor held
  refine (Supervisor.ensures_of_reaches hcomes).post ?_
  rintro (stop | jobs) t ht
  · exact Regular.error (Comes.regular ht)
  · obtain ⟨u, hu, -, ht⟩ := ht
    rw [ht]
    exact Regular.ok ((hu.arrives.tail (.take u)).tail (.move (.signal _ _)))

/-! ### Sessions -/

/-- Runs a computation, and says whether it came to its end.  A call that has failed in the shell
does not end a session. -/
def enduring (body : ShellM σ α) : ShellM σ Bool :=
  ExceptT.mk fun s =>
    match body.run s with
    | (.ok _, s) => (.ok true, s)
    | (.error (.failed _), s) => (.ok false, s)
    | (.error stop, s) => (.error stop, s)

/-- What a session is made of. -/
inductive Turn where
  /-- A line is run. -/
  | line (text : Bytes)
  /-- Pipelines are run. -/
  | execute (pipelines : List Pipeline)
  /-- What has ended in the background is reported. -/
  | report
  /-- Time passes. -/
  | pause

namespace Turn

/-- The pipelines of a turn. -/
def pipelines : Turn → List Pipeline
  | .line text => pipelinesOf text
  | .execute pipelines => pipelines
  | .report | .pause => []

/-- Takes a turn, and says whether its line, if it has one, came to its end. -/
def run : Turn → ShellM σ Bool
  | .line text => enduring (runLine text)
  | .execute pipelines => enduring (Shell.execute pipelines)
  | .report => do
    let _ ← enduring Shell.report
    return true
  | .pause => do
    supervise fun held => Supervisor.drift held
    return true

end Turn

/-- Takes turns in order, and says whether all lines came to their ends. -/
def session : List Turn → ShellM σ Bool
  | [] => return true
  | turn :: turns => do
    let good ← turn.run
    let rest ← session turns
    return good && rest

omit [Host σ] in
theorem enduring_ensures {P : Shell σ → Prop} {R : Except Stop α → Shell σ → Prop}
    {Q : Except Stop Bool → Shell σ → Prop} {body : ShellM σ α} (h : Ensures P body R)
    (hok : ∀ a t, R (.ok a) t → Q (.ok true) t)
    (hfailed : ∀ e t, R (.error (.failed e)) t → Q (.ok false) t)
    (herror : ∀ stop t, R (.error stop) t → Q (.error stop) t) : Ensures P (enduring body) Q := by
  intro s hs
  have hr := h s hs
  unfold enduring
  rw [ExceptT.run_mk]
  rcases hbody : body.run s with ⟨r, t⟩
  rw [hbody] at hr
  rcases r with stop | a
  · cases stop with
    | failed e => exact hfailed e t hr
    | assertionFailed | lost => exact herror _ t hr
  · exact hok a t hr

theorem RegularOn.enduring {body : ShellM σ α} (h : Ensures (· = s) body (RegularOn launching s)) :
    Ensures (· = s) (enduring body) (RegularOn launching s) :=
  enduring_ensures h (fun _ _ ht => Regular.ok ht.arrives) (fun _ _ ht => Regular.ok ht.arrives)
    fun _ _ ht => Regular.error ht

/-- If all lines came to their ends, no foreground job is listed. -/
def ClearIfGood : Except Stop Bool → Shell σ → Prop
  | .ok true, t => t.jobs.hasForeground = false
  | _, _ => True

omit [Host σ] in
theorem enduring_clear {P : Shell σ → Prop} {body : ShellM σ α} (h : Ensures P body Clear) :
    Ensures P (enduring body) ClearIfGood :=
  enduring_ensures h (fun _ _ ht => ht) (fun _ _ _ => trivial) fun stop _ _ => by
    cases stop <;> trivial

namespace Turn

theorem run_regular (turn : Turn) (h : ∀ p ∈ turn.pipelines, ∀ a, p.Assigns a → launching a) :
    Ensures (· = s) turn.run (RegularOn launching s) := by
  cases turn with
  | line text => exact RegularOn.enduring (runLine_regular text h)
  | execute ps => exact RegularOn.enduring (execute_regular ps h)
  | report => exact RegularOn.bind (RegularOn.enduring report_regular) fun _ _ => RegularOn.ofPure
  | pause =>
      refine RegularOn.bind (supervise_regular fun held => ?_) fun _ _ => RegularOn.ofPure
      refine Ensures.ofModify ?_
      rintro _ rfl
      exact Regular.ok (.single (.move (.drift held _)))

theorem run_clear (turn : Turn) :
    Ensures (fun s : Shell σ => s.jobs.hasForeground = false) turn.run ClearIfGood := by
  -- a turn without pipelines launches nothing
  have hnone : turn.pipelines = [] →
      Ensures (fun s : Shell σ => s.jobs.hasForeground = false) turn.run ClearIfGood := by
    intro hnone
    refine Ensures.of_eq fun s hs => ?_
    have hregular : Ensures (· = s) turn.run (RegularOn (fun _ => False) s) :=
      run_regular turn (by simp [hnone])
    refine hregular.post fun r t ht => ?_
    have hclear := ht.clear (fun _ => False.elim) hs
    rcases r with stop | _ | _
    · trivial
    · trivial
    · exact hclear
  cases turn with
  | line text => exact enduring_clear (runLine_clear text)
  | execute ps => exact enduring_clear (execute_clear ps)
  | report | pause => exact hnone rfl

end Turn

/-- What the pipelines of turns assign to children. -/
def Launches (turns : List Turn) (a : Assignment) : Prop :=
  ∃ turn ∈ turns, ∃ p ∈ turn.pipelines, p.Assigns a

/-- **A session is steps only.** -/
theorem session_regular (turns : List Turn) (h : ∀ a, Launches turns a → launching a) :
    Ensures (· = s) (session turns) (RegularOn launching s) := by
  induction turns generalizing s with
  | nil => exact RegularOn.ofPure
  | cons turn turns ih =>
      have hturn : ∀ p ∈ turn.pipelines, ∀ a, p.Assigns a → launching a :=
        fun p hp a ha => h a ⟨turn, by simp, p, hp, ha⟩
      refine RegularOn.bind (turn.run_regular hturn) fun good t => ?_
      refine RegularOn.bind (ih ?_) fun rest u => RegularOn.ofPure
      rintro a ⟨turn', hmem, hp⟩
      exact h a ⟨turn', List.mem_cons_of_mem _ hmem, hp⟩

/-- **As long as every line comes to its end, only background jobs are listed between lines.** -/
theorem session_clear (turns : List Turn) :
    Ensures (fun s : Shell σ => s.jobs.hasForeground = false) (session turns) ClearIfGood := by
  induction turns with
  | nil => exact Ensures.ofPure fun _ hs => hs
  | cons turn turns ih =>
      have hstop : ∀ (stop : Stop) (t : Shell σ), ClearIfGood (.error stop) t := fun _ _ => trivial
      refine Ensures.bind ClearIfGood turn.run_clear ?_ fun stop t _ => hstop stop t
      rintro (_ | _)
      · -- a line has failed already, and nothing is said of the end
        refine Ensures.bind (fun _ _ => True) (fun _ _ => trivial) ?_ fun stop t _ => hstop stop t
        exact fun rest => Ensures.ofPure fun _ _ => trivial
      · refine Ensures.bind ClearIfGood (ih.pre fun _ h => h) ?_ fun stop t _ => hstop stop t
        intro rest
        exact Ensures.ofPure fun _ h => by simpa using h

/-- A shell whose supervisor has seen nothing yet. -/
structure Newborn (s : Shell σ) : Prop where
  children : s.children = []
  jobs : s.jobs = {}
  journal : s.journal = []

/-- **At every point of a session the jobs that are listed are the children that are outstanding.**
A session is steps of the supervisor, which launch children for its own pipelines.  If all children
exit or are killed by signals with names, then the session does not stop at an assertion, and in
every state on the way

* the running list has the children that have been forked and not reaped, each once and under the
  class of its pipeline, and every status so far was booked on the entry of its own child;
* a foreground job is listed exactly while a foreground child is outstanding.

As long as every line comes to its end, only background jobs are listed between lines.  This is so
on every host: whatever calls fail, in whatever order children end, and whichever process ids come
back. -/
theorem session_exact (hs : s.Newborn) (turns : List Turn) :
    let after := (session turns).run s
    Arrives (Launches turns) s.toSupervisor after.2.toSupervisor ∧
    (Named after.2.journal →
      after.1 ≠ .error .assertionFailed ∧
      ∀ u, Arrives (Launches turns) s.toSupervisor u →
        Arrives (Launches turns) u after.2.toSupervisor →
          u.Exact ∧ (u.jobs.running.map (·.pid)).Nodup ∧
            (u.jobs.hasForeground = true ↔ ∃ pid, (pid, .foreground) ∈ outstanding u.journal)) ∧
    (after.1 = .ok true → ∀ job ∈ after.2.jobs.running, job.jobClass = .background) := by
  intro after
  have hregular : RegularOn (Launches turns) s after.1 after.2 :=
    session_regular turns (fun _ h => h) s rfl
  have hexact : s.toSupervisor.Exact := Supervisor.exact_initial hs.children hs.jobs hs.journal
  have hclear : ClearIfGood after.1 after.2 :=
    session_clear turns s (by simp [hs.jobs, JobTable.hasForeground])
  refine ⟨hregular.arrives, fun hnamed => ⟨hregular.asserts hexact hnamed, ?_⟩, ?_⟩
  · intro u hu hafter
    have hu_exact := hu.exact hexact (hafter.named hnamed)
    exact ⟨hu_exact, hu_exact.once, hu_exact.hasForeground_iff⟩
  · intro hgood job hjob
    rw [hgood] at hclear
    cases hclass : job.jobClass with
    | background => rfl
    | foreground =>
        have hlisted := JobTable.hasForeground_iff.2 ⟨job, hjob, hclass⟩
        rw [hclear] at hlisted
        cases hlisted

/-- A session in which a process id comes back: the last of its lines runs in the background, and
its child has the process id that the first child of the first line had. -/
theorem session_exact_four :
    let after := (session [.line (utf8 "a | b"), .line (utf8 "c &"), .report, .line (utf8 "d"),
      .line (utf8 "e &")]).run (Fated.shell (.exited 3))
    after.1 = .ok true ∧ outstanding after.2.journal = [(1, .background)] ∧
      after.2.toSupervisor.Exact ∧ ∀ job ∈ after.2.jobs.running, job.jobClass = .background := by
  have hnewborn : (Fated.shell (.exited 3)).Newborn := ⟨rfl, rfl, rfl⟩
  have hrun : ((session [.line (utf8 "a | b"), .line (utf8 "c &"), .report, .line (utf8 "d"),
        .line (utf8 "e &")]).run (Fated.shell (.exited 3))).1 = .ok true ∧
      outstanding ((session [.line (utf8 "a | b"), .line (utf8 "c &"), .report, .line (utf8 "d"),
        .line (utf8 "e &")]).run (Fated.shell (.exited 3))).2.journal = [(1, .background)] ∧
      Named ((session [.line (utf8 "a | b"), .line (utf8 "c &"), .report, .line (utf8 "d"),
        .line (utf8 "e &")]).run (Fated.shell (.exited 3))).2.journal := by
    decide +kernel
  obtain ⟨hok, houtstanding, hnamed⟩ := hrun
  have hexact := session_exact hnewborn
    [.line (utf8 "a | b"), .line (utf8 "c &"), .report, .line (utf8 "d"), .line (utf8 "e &")]
  exact ⟨hok, houtstanding, ((hexact.2.1 hnamed).2 _ hexact.1 .refl).1, hexact.2.2 hok⟩

end Shell

end JobShell
