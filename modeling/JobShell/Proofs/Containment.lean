/-
**What happens in a child stays in the child.**

The shell runs lines one after another, and its children do what they like: a program that cannot be
launched, any exit status, death by a signal, in any order, in the foreground or in the background.
If the host lets no call of the shell fail and there is room for three more descriptors, a line is
run to its end and leaves no foreground job, with one exception: a child that is killed by a signal
without a name makes the wait call fail, and the shell stops although the failure was the child's.

Main definitions:

* `JobShell.Shell.runLines` — lines, one after another;
* `JobShell.Shell.Fresh` — a shell that has not run anything yet;
* `JobShell.Fated` — a host on which every child meets the same end.

Main results:

* `JobShell.Shell.runPipeline_idle`, `JobShell.Shell.runLine_idle` — between two lines no foreground
  job is left, and the descriptors are as before;
* `JobShell.Shell.runLines_contained` — a session goes on unless a child was killed by a signal
  without a name, or the shell is lost.
-/

import JobShell.Proofs.Job.Accounting
import JobShell.Proofs.Shell

set_option autoImplicit false

namespace JobShell

open Supervisor (Reaches Comes)

namespace Shell

variable {σ : Type} [Host σ]

/-- Runs lines in order, until one fails. -/
def runLines : List Bytes → ShellM σ Unit
  | [] => return ()
  | text :: texts => do
    runLine text
    runLines texts

/-! ### Between two lines -/

/-- A state between two pipelines of a session that began at `s₀`. -/
structure Idle (s₀ : Supervisor σ) (d : Descriptors) (s : Shell σ) : Prop where
  reaches : Reaches (fun _ => True) s₀ s.toSupervisor
  descriptors : s.descriptors = d
  foreground : s.jobs.hasForeground = false

/-- A computation comes to such a state, or it stops early. -/
def IdleAfter (s₀ : Supervisor σ) (d : Descriptors) : Except Stop Unit → Shell σ → Prop
  | .ok _, s => Idle s₀ d s
  | .error stop, s => Comes (fun _ => True) s₀ (.error stop : Except Stop Unit) s.toSupervisor

section Lines

variable {s₀ : Supervisor σ} {d : Descriptors}

/-- What spares the children and the jobs leaves the shell between two pipelines. -/
theorem IdleAfter.of_spares {s t : Shell σ} {r : Except Stop Unit} (hs : Idle s₀ d s)
    (h : Spares s r t) : IdleAfter s₀ d r t := by
  have hcomes : Comes (fun _ => True) s₀ r t.toSupervisor :=
    Comes.of_reaches hs.reaches (h.comes.mono fun _ => False.elim)
  cases r with
  | ok _ => exact ⟨hcomes, h.descriptors.trans hs.descriptors, by rw [h.jobs]; exact hs.foreground⟩
  | error stop => exact hcomes

/-- **A pipeline leaves no foreground job**, be it run by the shell, in the foreground or in the
background. -/
theorem runPipeline_idle (p : Pipeline) (hstdin : d.isOpen 0 = true) (hroom : 3 ≤ d.room) :
    Ensures (Idle s₀ d) (runPipeline p) (IdleAfter s₀ d) := by
  refine Ensures.of_eq fun s hs => ?_
  unfold runPipeline
  cases p.builtin? with
  | some found => exact (runBuiltin_spares found.1 found.2).post fun _ _ => .of_spares hs
  | none =>
      have hopen : (s.descriptors.file? 0).isSome = true := by rw [hs.descriptors]; exact hstdin
      obtain ⟨file, hfile⟩ := Option.isSome_iff_exists.1 hopen
      have hroom' : 3 ≤ s.descriptors.room := by rw [hs.descriptors]; exact hroom
      refine (runForked_becomes hfile (by omega) (.inr hroom')).post fun r t ht => ?_
      have hcomes : Comes (fun _ => True) s₀ r t.toSupervisor :=
        Comes.of_reaches hs.reaches (ht.comes.mono fun _ _ => trivial)
      cases r with
      | error stop => exact hcomes
      | ok _ =>
          refine ⟨hcomes, ht.after.1.trans hs.descriptors, ?_⟩
          cases hbackground : p.background with
          | false => exact ht.after.2 rfl hbackground
          | true =>
              have hclass : p.jobClass = .background := by simp [Pipeline.jobClass, hbackground]
              have hreaches := ht.comes
              rw [hclass] at hreaches
              exact Reaches.keeps (I := fun s => s.jobs.hasForeground = false) hreaches
                (fun _ _ => Supervisor.Moves.background) hs.foreground

theorem execute_idle (ps : List Pipeline) (hstdin : d.isOpen 0 = true) (hroom : 3 ≤ d.room) :
    Ensures (Idle s₀ d) (execute ps) (IdleAfter s₀ d) := by
  induction ps with
  | nil => exact Ensures.ofPure fun _ h => h
  | cons p ps ih =>
      refine Ensures.bind _ (runPipeline_idle p hstdin hroom) ?_ fun _ _ h => h
      refine fun _ => Ensures.get_bind fun s hs => ?_
      split
      · exact Ensures.ofPure fun t ht => ht ▸ hs
      · exact ih.pre fun t ht => ht ▸ hs

/-- **A line leaves no foreground job**, whatever its text. -/
theorem runLine_idle (text : Bytes) (hstdin : d.isOpen 0 = true) (hroom : 3 ≤ d.room) :
    Ensures (Idle s₀ d) (runLine text) (IdleAfter s₀ d) := by
  unfold runLine
  cases parse text >>= Line.validate with
  | ok ps => exact execute_idle ps hstdin hroom
  | error e =>
      exact Ensures.of_eq fun s hs => (say_spares 2 syntaxError).post fun _ _ => .of_spares hs

theorem runLines_idle (texts : List Bytes) (hstdin : d.isOpen 0 = true) (hroom : 3 ≤ d.room) :
    Ensures (Idle s₀ d) (runLines texts) (IdleAfter s₀ d) := by
  induction texts with
  | nil => exact Ensures.ofPure fun _ h => h
  | cons text texts ih =>
      exact Ensures.bind _ (runLine_idle text hstdin hroom) (fun _ => ih) fun _ _ h => h

end Lines

/-! ### Sessions -/

/-- A shell that has not run anything yet.  It may have children all the same, of which the job
table knows nothing. -/
structure Fresh (s : Shell σ) : Prop where
  truthful : s.toSupervisor.Truthful
  decoded : ∀ pid ending, .undecodable pid ending ∉ s.journal
  jobs : s.jobs = {}
  stdin : s.descriptors.isOpen 0 = true
  room : 3 ≤ s.descriptors.room

end Shell

/-! ### A host on which every child meets the same end -/

/-- The end of every child, and the children that live. -/
structure Fated where
  fate : Ending
  living : List Int := []

namespace Fated

instance : Host Fated where
  refuses _ _ := none
  newPipe h := (0, h)
  nextPid _ := 0
  start pid _ h := { h with living := h.living ++ [pid] }
  write _ _ h := h
  unread _ _ := []
  take _ _ h := h
  enter _ _ _ := .error Errno.noEntry
  pathOf _ _ := .error Errno.noEntry
  kill _ _ _ := .error Errno.noProcess
  drift _ h := ([], h)
  await _ h :=
    match h.living with
    | [] => .error (.stuck, h)
    | pid :: rest => .ok ((pid, h.fate), { h with living := rest })

/-- Every child of the host ends. -/
theorem mortal : Mortal fun (h : Fated) pids => h.living = pids ∧ pids.Nodup where
  start pid a h hfresh := by
    obtain ⟨rfl, hnodup⟩ := h
    exact ⟨rfl, List.nodup_append.2 ⟨hnodup, by simp, by simpa using fun _ h => by rintro rfl; exact hfresh h⟩⟩
  newPipe h := h
  write _ _ h := h
  kill _ hkill := by simp [Host.kill] at hkill
  drift held h := by simpa [Host.drift] using h
  await := by
    rintro ⟨fate, living⟩ pids held ⟨rfl, hnodup⟩ hne
    cases living with
    | nil => exact absurd rfl hne
    | cons pid rest =>
        refine ⟨(pid, fate), ⟨fate, rest⟩, rfl, by simp, ?_⟩
        obtain ⟨hpid, hnodup⟩ := List.nodup_cons.1 hnodup
        have hrest : (pid :: rest).filter (· ≠ pid) = rest := by
          rw [List.filter_cons_of_neg (by simp), List.filter_eq_self]
          intro pid' hpid'
          rw [decide_eq_true_iff]
          rintro rfl
          exact hpid hpid'
        exact ⟨hrest.symm, by rw [hrest]; exact hnodup⟩

/-- A shell on that host. -/
def shell (fate : Ending) : Shell Fated where
  host := { fate := fate }
  descriptors := { entries := [(0, .opened 0), (1, .output), (2, .diagnostics)] }
  place := 0
  home := none

theorem shell_fresh (fate : Ending) : (shell fate).Fresh :=
  ⟨Supervisor.truthful_initial _, by simp [shell], rfl, rfl, Nat.le_add_left 3 1018⟩

end Fated

namespace Shell

variable {σ : Type} [Host σ]

/-- **What happens in a child stays in the child, but for one kind of death.**  A session from a
fresh shell, on a host that lets no call fail, either

* goes to its end, without a foreground job and without a status that could not be decoded, or
* stops at a child that was killed by a signal without a name, or
* is lost, which takes a host on which not every child ends, or a signal of the shell to itself. -/
theorem runLines_contained {s : Shell σ} (hs : s.Fresh)
    (hrefuses : ∀ call (host : σ), Host.refuses call host = none) (texts : List Bytes) :
    let after := (runLines texts).run s
    (after.1 = .ok ⟨⟩ ∧ after.2.jobs.hasForeground = false ∧
      ∀ pid ending, .undecodable pid ending ∉ after.2.journal) ∨
    (∃ pid n, after.1 = .error (.failed ⟨.waitpid, Errno.invalid⟩) ∧
      .undecodable pid (.killed n) ∈ after.2.journal ∧ ¬ (1 ≤ n ∧ n ≤ 31)) ∨
    ∃ loss, after.1 = .error (.lost loss) ∧
      ∀ living, Mortal living → ¬ living s.host (livingPids s.children) := by
  have hidle : Idle s.toSupervisor s.descriptors s :=
    ⟨.refl, rfl, by simp [hs.jobs, JobTable.hasForeground]⟩
  have haccounted : s.toSupervisor.Accounted :=
    ⟨hs.truthful, by simp [hs.jobs], by simp [hs.jobs], hs.decoded⟩
  have hafter := runLines_idle texts hs.stdin hs.room s hidle
  rcases hrun : (runLines texts).run s with ⟨r, t⟩
  rw [hrun] at hafter
  cases r with
  | ok _ =>
      refine .inl ⟨rfl, hafter.foreground, ?_⟩
      exact (hafter.reaches.keeps (fun _ _ => Supervisor.Moves.accounted) haccounted).decoded
  | error stop =>
      obtain ⟨u, v, hu, hstop, hv⟩ := hafter
      have hu_accounted := hu.keeps (fun _ _ => Supervisor.Moves.accounted) haccounted
      rcases hstop.of_accounted hu_accounted hrefuses with ⟨pid, n, rfl, hmem, hn⟩ | ⟨loss, rfl⟩
      · refine .inr (.inl ⟨pid, n, rfl, ?_, hn⟩)
        exact Reaches.keeps (I := fun s => .undecodable pid (.killed n) ∈ s.journal) hv
          (fun _ _ hmove => hmove.mem_journal) hmem
      · refine .inr (.inr ⟨loss, rfl, fun living hmortal hliving => ?_⟩)
        have hlinked : u.Linked living :=
          hu.keeps (fun _ _ => Supervisor.Moves.linked hmortal) hliving
        exact hstop.not_linked hmortal hlinked

/-- Two lines whose children exit. -/
theorem runLines_contained_exits :
    let after := (runLines [utf8 "a | b", utf8 "c &"]).run (Fated.shell (.exited 3))
    after.1 = .ok ⟨⟩ ∧ after.2.jobs.hasForeground = false ∧
      ∀ pid ending, .undecodable pid ending ∉ after.2.journal := by
  have hok : ((runLines [utf8 "a | b", utf8 "c &"]).run (Fated.shell (.exited 3))).1 = .ok ⟨⟩ := by
    decide +kernel
  rcases runLines_contained (Fated.shell_fresh (.exited 3)) (fun _ _ => rfl)
    [utf8 "a | b", utf8 "c &"] with h | ⟨_, _, h, -⟩ | ⟨_, h, -⟩
  · exact h
  · rw [hok] at h
    cases h
  · rw [hok] at h
    cases h

/-- A line whose child is killed by signal 34: on a host that lets no call fail and on which every
child ends, the line fails and leaves a foreground job. -/
theorem runLines_not_contained :
    ¬ ∀ (σ : Type) [Host σ] (living : σ → List Int → Prop), Mortal living →
      (∀ call (host : σ), Host.refuses call host = none) → ∀ s : Shell σ, s.Fresh →
        living s.host (livingPids s.children) → ∀ texts : List Bytes,
          ((runLines texts).run s).1 = .ok ⟨⟩ ∧
            ((runLines texts).run s).2.jobs.hasForeground = false := by
  intro h
  have hline := h Fated _ Fated.mortal (fun _ _ => rfl) (Fated.shell (.killed 34))
    (Fated.shell_fresh _) ⟨rfl, List.nodup_nil⟩ [utf8 "a"]
  have hfails : ((runLines [utf8 "a"]).run (Fated.shell (.killed 34))).1 ≠ .ok ⟨⟩ ∧
      ((runLines [utf8 "a"]).run (Fated.shell (.killed 34))).2.jobs.hasForeground = true := by
    decide +kernel
  exact hfails.1 hline.1

end Shell

end JobShell
