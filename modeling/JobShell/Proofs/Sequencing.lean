/-
**A semicolon runs one line after another.**

Two lines that can be run each by itself can be put into one, with a semicolon between them.  No
token reaches across the semicolon, no slot and no pipeline does, and empty pipelines vanish on both
sides, so the pipelines of the joined line are those of the two.  They run one after another until
one stops the shell or asks it to exit, and it makes no difference whether the line ended in between.

Main results:

* `JobShell.scan_append_separator`, `JobShell.parse_append_semicolon`, `JobShell.validate_append` —
  tokens, lines and pipelines of the joined line;
* `JobShell.Shell.execute_append` — running pipelines and then others;
* `JobShell.Shell.runLine_append_semicolon` — **running the joined line**.
-/

import JobShell.Proofs.Containment
import JobShell.Proofs.Line.WellFormed

set_option autoImplicit false

namespace JobShell

/-! ### Tokens, lines and pipelines -/

/-- The bytes that end a pipeline, and the separators that they are. -/
inductive Separator.Ends : Separator → UInt8 → Prop
  | sequence : Ends .sequence semicolon
  | background : Ends .background ampersand

/-- No token reaches across the end of a pipeline. -/
theorem Reads.append_separator {s : Separator} {mark : UInt8} {t u : Bytes}
    {first rest : List Token} (hmark : s.Ends mark) (ht : Reads t first) (hu : Reads u rest) :
    Reads (t ++ mark :: u) (first ++ .separator s :: rest) := by
  cases hmark with
  | sequence => exact ht.append_apart (.sequence hu) (startsApart_cons (by decide) (by decide))
  | background => exact ht.append_apart (.background hu) (startsApart_cons (by decide) (by decide))

theorem scan_append_separator {s : Separator} {mark : UInt8} (hmark : s.Ends mark) (t u : Bytes) :
    scan (t ++ mark :: u) = scan t ++ .separator s :: scan u :=
  reads_iff.1 ((reads_scan t).append_separator hmark (reads_scan u))

/-- The pipelines on both sides of a semicolon make one line. -/
theorem LineOf.append {first rest : List Token} {line line' : Line} (h : LineOf first line)
    (h' : LineOf rest line') : LineOf (first ++ .separator .sequence :: rest) (line ++ line') := by
  induction h with
  | last hslots => exact .sequence hslots h'
  | sequence hslots _ ih =>
      rw [List.append_assoc, List.cons_append]
      exact .sequence hslots ih
  | background hslots _ ih =>
      rw [List.append_assoc, List.cons_append]
      exact .background hslots ih

theorem parse_append_semicolon {t u : Bytes} {line line' : Line} (ht : parse t = .ok line)
    (hu : parse u = .ok line') : parse (t ++ semicolon :: u) = .ok (line ++ line') := by
  rw [parse, scan_append_separator .sequence]
  exact parseTokens_of_lineOf ((lineOf_of_parseTokens ht).append (lineOf_of_parseTokens hu))

/-- Pipelines that ask for nothing vanish on both sides. -/
theorem validate_append {line line' : Line} {ps qs : List Pipeline}
    (h : Line.validate line = .ok ps) (h' : Line.validate line' = .ok qs) :
    Line.validate (line ++ line') = .ok (ps ++ qs) := by
  rw [Line.validate_eq_ok_iff] at h h' ⊢
  rw [List.filter_append, h, h', List.map_append]

/-- A text that can be run is a line. -/
theorem exists_of_validate {t : Bytes} {ps : List Pipeline}
    (h : parse t >>= Line.validate = .ok ps) :
    ∃ line, parse t = .ok line ∧ Line.validate line = .ok ps :=
  eq_ok_of_bind h

namespace Shell

variable {σ : Type} [Host σ] {s : Shell σ}

/-! ### Running -/

/-- What runs after a computation: nothing if it stopped early or the shell has been asked to
exit. -/
def andThen (first next : ShellM σ Unit) (s : Shell σ) : Except Stop Unit × Shell σ :=
  match first.run s with
  | (.error stop, t) => (.error stop, t)
  | (.ok (), t) => if t.exitRequested.isSome then (.ok (), t) else next.run t

theorem execute_nil : (execute ([] : List Pipeline)).run s = (.ok (), s) := rfl

/-- A pipeline is run, and then the others unless it was the last to run. -/
theorem execute_cons (p : Pipeline) (ps : List Pipeline) :
    (execute (p :: ps)).run s = andThen (runPipeline p) (execute ps) s := by
  rw [execute, run_bind, andThen]
  rcases (runPipeline p).run s with ⟨r, t⟩
  cases r with
  | error stop => rfl
  | ok _ =>
      simp only
      rw [run_bind]
      change (if t.exitRequested.isSome then pure () else execute ps : ShellM σ Unit).run t = _
      split <;> rfl

/-- **Running pipelines and then others.** -/
theorem execute_append (ps qs : List Pipeline) (hs : s.exitRequested = none) :
    (execute (ps ++ qs)).run s = andThen (execute ps) (execute qs) s := by
  induction ps generalizing s with
  | nil => simp [andThen, execute_nil, hs]
  | cons p ps ih =>
      rw [List.cons_append, execute_cons, andThen, andThen, execute_cons, andThen]
      rcases (runPipeline p).run s with ⟨r, t⟩
      cases r with
      | error stop => rfl
      | ok _ =>
          simp only
          by_cases hexit : t.exitRequested.isSome = true
          · simp [hexit]
          · rw [if_neg hexit, if_neg hexit, ih (by simpa using hexit)]
            rfl

theorem runLine_of_validate {t : Bytes} {ps : List Pipeline}
    (h : parse t >>= Line.validate = .ok ps) : (runLine t : ShellM σ Unit) = execute ps := by
  rw [runLine, h]

/-- **A semicolon runs one line after another.**  When `t` and `u` can each be run as a line, the
line of `t`, a semicolon and `u` does what the line `t` does, and after it what the line `u` does,
unless `t` has stopped early or has asked the shell to exit: then nothing of `u` runs.  On every
host and from every state this is the same result and the same state, that of the host included. -/
theorem runLine_append_semicolon {t u : Bytes} {ps qs : List Pipeline}
    (hs : s.exitRequested = none) (ht : parse t >>= Line.validate = .ok ps)
    (hu : parse u >>= Line.validate = .ok qs) :
    (runLine (t ++ semicolon :: u)).run s =
      match (runLine t).run s with
      | (.error stop, s') => (.error stop, s')
      | (.ok (), s') => if s'.exitRequested.isSome then (.ok (), s') else (runLine u).run s' := by
  obtain ⟨line, hline, hps⟩ := exists_of_validate ht
  obtain ⟨line', hline', hqs⟩ := exists_of_validate hu
  have hjoined : parse (t ++ semicolon :: u) >>= Line.validate = .ok (ps ++ qs) := by
    rw [parse_append_semicolon hline hline']
    exact validate_append hps hqs
  rw [runLine_of_validate hjoined, runLine_of_validate ht, runLine_of_validate hu]
  exact execute_append ps qs hs

/-- A line that asks the shell to exit keeps what comes after a semicolon from running. -/
theorem runLine_append_semicolon_exit :
    (runLine (utf8 "a & exit 3" ++ semicolon :: utf8 "b")).run (Fated.shell (.exited 0)) =
      (runLine (utf8 "a & exit 3")).run (Fated.shell (.exited 0)) := by
  have hrun : ((runLine (utf8 "a & exit 3")).run (Fated.shell (.exited 0))).1 = .ok () ∧
      ((runLine (utf8 "a & exit 3")).run (Fated.shell (.exited 0))).2.exitRequested.isSome := by
    decide +kernel
  have ht : parse (utf8 "a & exit 3") >>= Line.validate =
      .ok [⟨[⟨utf8 "a", [], []⟩], true⟩, ⟨[⟨utf8 "exit", [utf8 "3"], []⟩], false⟩] := rfl
  have hu : parse (utf8 "b") >>= Line.validate = .ok [⟨[⟨utf8 "b", [], []⟩], false⟩] := rfl
  rw [runLine_append_semicolon rfl ht hu]
  rcases hresult : (runLine (utf8 "a & exit 3")).run (Fated.shell (.exited 0)) with ⟨r, s'⟩
  rw [hresult] at hrun
  obtain rfl : r = .ok () := hrun.1
  simp only [if_pos hrun.2]

end Shell

end JobShell
