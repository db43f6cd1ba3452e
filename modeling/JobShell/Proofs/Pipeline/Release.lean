/-
**Descriptors are given back.**

While a pipeline is launched the shell holds between one and three descriptors for it: the one that
the next command reads and, from the moment a pipe is made until the command that writes it is
there, both ends of that pipe.  After almost every call there is a way out: the call may fail, the
kernel may be out of descriptors, a child may not be listed.  Whichever way is taken, and for
whichever command of the pipeline, the shell ends with the table with which it began.

Nothing is assumed of the host, of the table or of the pipeline.  It is enough that a descriptor that
is taken was free before, so that closing it undoes the taking, and that the shell closes only what
is open, so that no closing fails.

Main results:

* `JobShell.Shell.spawnStages_releases` — launching the commands of a pipeline;
* `JobShell.Shell.runForked_releases` — running a pipeline by children;
* `JobShell.Shell.runLine_releases`, `JobShell.Shell.report_releases` — running a line, and
  reporting;
* `JobShell.Shell.runPipeline_descriptors` — **the table after a pipeline is the table before it.**
-/

import JobShell.Proofs.Shell

set_option autoImplicit false

namespace JobShell

namespace Shell

variable {σ : Type} {α : Type} {d base : Descriptors}

/-! ### Computations that leave the table alone -/

/-- A computation that ends with the table with which it begins, whether it stops early or not. -/
def Releases (body : ShellM σ α) : Prop :=
  ∀ d : Descriptors, Ensures (fun s => s.descriptors = d) body fun _ t => t.descriptors = d

theorem Releases.bind {β : Type} {x : ShellM σ β} {f : β → ShellM σ α} (hx : Releases x)
    (hf : ∀ b, Releases (f b)) : Releases (x >>= f) := by
  intro d
  refine Ensures.bind _ (hx d) ?_ ?_
  · intro b
    exact hf b d
  · intro stop t ht
    exact ht

theorem Releases.pure (a : α) : Releases (pure a : ShellM σ α) := by
  intro d
  refine Ensures.ofPure ?_
  intro s hs
  exact hs

/-- The supervisor has no descriptors. -/
theorem supervise_releases (body : Descriptors → Supervised σ α) : Releases (supervise body) := by
  intro d
  refine Ensures.supervise ?_
  intro s hs
  exact fun _ _ => hs

/-- What is decided by looking at the shell. -/
theorem Releases.get_bind {f : Shell σ → ShellM σ α} (h : ∀ s, Releases (f s)) :
    Releases (get >>= f) := by
  intro d
  refine Ensures.get_bind ?_
  intro s hs
  refine (h s d).pre ?_
  rintro t rfl
  exact hs

/-! ### Taking descriptors, and closing them -/

variable [Host σ]

/-- A duplicate takes a number that was free, unless it fails for whatever reason. -/
theorem duplicate_takes (fd : Nat) :
    Ensures (fun s : Shell σ => s.descriptors = d) (duplicate fd)
      fun r t => ∃ file, Assigned d file r t := by
  refine Ensures.bind (fun _ t => t.descriptors = d) (supervise_releases _ d) ?_ ?_
  · intro _
    refine Ensures.get_bind ?_
    rintro s rfl
    cases hfile : s.descriptors.file? fd with
    | none =>
        simp only [hfile]
        refine Ensures.ofThrow ?_
        rintro _ rfl
        -- no number is taken, so any file will do
        exact ⟨.output, rfl⟩
    | some file =>
        simp only [hfile]
        cases hallocate : s.descriptors.allocate? file 0 with
        | none =>
            refine Ensures.ofThrow ?_
            rintro _ rfl
            exact ⟨file, rfl⟩
        | some taken =>
            obtain ⟨new, table⟩ := taken
            obtain ⟨-, rfl, rfl⟩ := Descriptors.allocate?_eq_some_iff.1 hallocate
            refine Ensures.modify_bind ?_
            rintro _ rfl
            refine Ensures.ofPure ?_
            rintro _ rfl
            exact ⟨file, Descriptors.leastFree_free _ 0, rfl⟩
  · intro stop t ht
    exact ⟨.output, ht⟩

/-- A pipe takes two numbers that were free, or none. -/
theorem makePipe_takes :
    Ensures (fun s : Shell σ => s.descriptors = d) makePipe (Piped d) := by
  refine Ensures.bind (fun _ t => t.descriptors = d) (supervise_releases _ d) ?_ ?_
  · intro _
    refine Ensures.get_bind ?_
    rintro s rfl
    by_cases hroom : s.descriptors.room < 2
    · rw [if_pos hroom]
      refine Ensures.throw_bind ?_
      rintro _ rfl
      rfl
    · rw [if_neg hroom]
      refine Ensures.set_bind ?_
      rintro s rfl
      refine Ensures.ofPure ?_
      rintro _ rfl
      exact ⟨_, Descriptors.leastFree_free _ 0, Descriptors.leastFree_free _ 0, rfl⟩
  · intro stop t ht
    exact ht

omit [Host σ] in
/-- Closing what is open does not fail. -/
theorem close_frees {fd : Nat} (hopen : d.isOpen fd = true) :
    Ensures (fun s : Shell σ => s.descriptors = d) (close fd) (Closed d fd) := by
  refine Ensures.get_bind ?_
  rintro s rfl
  simp only [hopen, if_true]
  refine Ensures.ofModify ?_
  rintro _ rfl
  rfl

omit [Host σ] in
/-- Closing a number that was free before it was given a file. -/
theorem close_releases {fd : Nat} {file : OpenFile} (hfree : base.isOpen fd = false) :
    Ensures (fun s : Shell σ => s.descriptors = base.assign fd file) (close fd)
      fun _ t => t.descriptors = base := by
  refine (close_frees Descriptors.isOpen_assign_self).post ?_
  rintro (stop | _) t ht
  · exact ht.elim
  · have hclose : t.descriptors = (base.assign fd file).close fd := ht
    rw [hclose, Descriptors.close_assign hfree]

omit [Host σ] in
/-- What stops early while a number is taken frees it. -/
theorem releasing_releases {fd : Nat} {file : OpenFile} {body : ShellM σ α}
    (hbody : Releases body) (hfree : base.isOpen fd = false) :
    Ensures (fun s => s.descriptors = base.assign fd file) (releasing [fd] body)
      (Holding (base.assign fd file) base) := by
  refine Ensures.releasing (hbody _) ?_ ?_
  · intro a t ht
    exact ht
  · intro stop t ht
    change t.descriptors.close fd = base
    rw [ht, Descriptors.close_assign hfree]

/-! ### Running a pipeline -/

theorem launch_releases (command : Command) (input : Nat) (pipe : Option (Nat × Nat))
    (jobClass : JobClass) :
    Releases (launch command input pipe jobClass : ShellM σ Unit) := by
  refine Releases.get_bind ?_
  intro s
  exact supervise_releases _

/-- A pipe is made for the next command, or the number from which that command reads is freed. -/
theorem makePipe_connects {input : Nat} {file : OpenFile} (hfree : base.isOpen input = false) :
    Ensures (fun s : Shell σ => s.descriptors = base.assign input file)
      (releasing [input] makePipe) (Connecting base input file) := by
  refine Ensures.releasing makePipe_takes ?_ ?_
  · rintro ⟨reader, writer⟩ t ⟨pipe, hreader, hwriter, ht⟩
    exact ⟨pipe, hfree, hreader, hwriter, ht⟩
  · intro stop t ht
    have hsame : t.descriptors = base.assign input file := ht
    change t.descriptors.close input = base
    rw [hsame, Descriptors.close_assign hfree]

/-- **Launching the commands of a pipeline.**  Besides the table of before, the shell has a number
from which the first command reads.  In the end it has it no longer, however many commands have
been launched by then. -/
theorem spawnStages_releases {jobClass : JobClass} {commands : List Command} {input : Nat}
    {file : OpenFile} (hfree : base.isOpen input = false) :
    Ensures (fun s : Shell σ => s.descriptors = base.assign input file)
      (spawnStages jobClass input commands) fun _ t => t.descriptors = base := by
  -- the next command reads another number, which is as free in the table of before
  induction commands generalizing input file with
  | nil => exact close_releases hfree
  | cons command rest ih =>
      cases rest with
      | nil =>
          refine Ensures.bind _ (releasing_releases (launch_releases _ _ _ _) hfree) ?_ ?_
          · intro _
            exact close_releases hfree
          · intro stop t ht
            exact ht
      | cons next rest =>
          refine Ensures.bind _ (makePipe_connects hfree) ?_ fun _ _ ht => ht
          rintro ⟨reader, writer⟩
          refine Ensures.of_eq ?_
          rintro s ⟨pipe, hconnected⟩
          -- until the command is there, all three numbers are freed if anything fails
          have hlaunch : Ensures (· = s)
              (releasing [input, reader, writer]
                (launch command input (some (reader, writer)) jobClass))
              (Holding s.descriptors base) := by
            refine Ensures.releasing ((launch_releases _ _ _ _ s.descriptors).pre ?_) ?_ ?_
            · rintro t rfl
              rfl
            · intro _ t ht
              exact ht
            · intro stop t ht
              change [input, reader, writer].foldl Descriptors.close t.descriptors = base
              rw [ht]
              exact hconnected.close_all
          refine Ensures.bind _ hlaunch ?_ fun _ _ ht => ht
          intro _
          refine Ensures.bind _ (close_frees hconnected.isOpen_input) ?_ fun _ _ ht => ht.elim
          intro _
          refine Ensures.bind _ (close_frees hconnected.isOpen_writer) ?_ fun _ _ ht => ht.elim
          intro _
          refine (@ih reader (.pipeReader pipe) hconnected.reader_base.2).pre ?_
          intro t ht
          have hclosed : t.descriptors = (s.descriptors.close input).close writer := ht
          rw [hclosed, hconnected.close_writer]

/-- **Running a pipeline by children.** -/
theorem runForked_releases (p : Pipeline) : Releases (runForked p : ShellM σ Unit) := by
  intro d
  refine Ensures.bind _ (duplicate_takes 0) ?_ ?_
  · intro input
    refine Ensures.of_eq ?_
    rintro s ⟨file, hfree, hs⟩
    have hheld : ∀ t : Shell σ, t = s → t.descriptors = d.assign input file := by
      rintro t rfl
      exact hs
    refine Ensures.bind _
      ((releasing_releases (supervise_releases _) hfree).pre hheld) ?_ fun _ _ ht => ht
    intro previous
    refine Ensures.restoring (Ensures.post ?_ fun _ _ ht => ht)
    refine Ensures.bind _ (releasing_releases (supervise_releases _) hfree) ?_ fun _ _ ht => ht
    intro _
    refine Ensures.bind _ (spawnStages_releases hfree) ?_ fun _ _ ht => ht
    intro _
    split
    · exact supervise_releases _ d
    · exact Releases.pure _ d
  · rintro stop t ⟨file, ht⟩
    exact ht

theorem runBuiltin_releases (b : Builtin) (command : Command) :
    Releases (runBuiltin b command : ShellM σ Unit) := by
  rintro d s rfl
  exact (runBuiltin_spares b command s rfl).descriptors

theorem runPipeline_releases (p : Pipeline) : Releases (runPipeline p : ShellM σ Unit) := by
  unfold runPipeline
  cases p.builtin? with
  | some found => exact runBuiltin_releases found.1 found.2
  | none => exact runForked_releases p

/-! ### Lines, reports and the descriptors -/

theorem say_releases (fd : Nat) (text : Bytes) : Releases (say fd text : ShellM σ Unit) := by
  rintro d s rfl
  exact (say_spares fd text s rfl).descriptors

theorem execute_releases (ps : List Pipeline) : Releases (execute ps : ShellM σ Unit) := by
  induction ps with
  | nil => exact Releases.pure _
  | cons p ps ih =>
      refine (runPipeline_releases p).bind fun _ => Releases.get_bind fun s => ?_
      split
      · exact Releases.pure _
      · exact ih

/-- **A line leaves the table alone**, whatever its text. -/
theorem runLine_releases (text : Bytes) : Releases (runLine text : ShellM σ Unit) := by
  unfold runLine
  cases parse text >>= Line.validate with
  | ok ps => exact execute_releases ps
  | error e => exact say_releases 2 syntaxError

theorem report_releases : Releases (report : ShellM σ (List Job)) := supervise_releases _

/-- **A pipeline gives back every descriptor.**  Whatever the pipeline, and whatever the host does
with the calls that the shell makes for it, after the pipeline the same numbers are open as before
it, and they stand for the same open files.  So it is when the pipeline comes to its end, when the
standard input cannot be duplicated, when the signal cannot be blocked or children cannot be reaped,
when the pipe or the fork of any command fails, and when the shell fails to wait. -/
theorem runPipeline_descriptors (p : Pipeline) (s : Shell σ) :
    ((runPipeline p).run s).2.descriptors = s.descriptors :=
  runPipeline_releases p s.descriptors s rfl

end Shell

end JobShell
