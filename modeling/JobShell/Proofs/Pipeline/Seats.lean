/-
**The places of a pipeline.**

What a child of a pipeline is given depends on its place alone: the table of the shell, the file that
the first command reads, and the numbers of the pipes.  The commands have no part in it.  So a
pipeline has its places before it has commands, and whether a command can be launched makes no
difference to the places of the others.

Main definitions:

* `JobShell.Seat` — a place in a pipeline;
* `JobShell.Descriptors.seats` — the places of a pipeline with some pipes, one after another;
* `JobShell.Pipeline.seated` — its commands in their places.

Main results:

* `JobShell.Pipeline.seated_wired` — each command reads the pipe that the one before it writes;
* `JobShell.Pipeline.seated_able` — every child can take its place;
* `JobShell.Pipeline.seated_alike` — the places have nothing to do with what the other commands are.
-/

import JobShell.Proofs.Conduct

set_option autoImplicit false

namespace JobShell

/-- A place in a pipeline: the number from which its command is to read, the ends of the pipe that it
is to write, if there is one, and the table with which its child starts. -/
structure Seat where
  input : Nat
  pipe : Option (Nat × Nat)
  descriptors : Descriptors

/-- A child for a command in a place. -/
def Seat.assign (seat : Seat) (jobClass : JobClass) (place : Nat) (command : Command) : Assignment :=
  { command := command
    jobClass := jobClass
    input := seat.input
    pipe := seat.pipe
    descriptors := seat.descriptors
    place := place }

/-- The places of a pipeline with some pipes, for a shell with the table `base`.  The first one reads
`source` from the number `input`, and each further one reads the pipe of the one before it. -/
def Descriptors.seats (base : Descriptors) : Nat → OpenFile → List Nat → List Seat
  | input, source, [] => [⟨input, none, base.assign input source⟩]
  | input, source, pipe :: pipes =>
    let d := base.assign input source
    let reader := d.leastFree 0
    let ends := d.assign reader (.pipeReader pipe)
    let writer := ends.leastFree 0
    ⟨input, some (reader, writer), ends.assign writer (.pipeWriter pipe)⟩ ::
      base.seats reader (.pipeReader pipe) pipes

/-- Commands in their places. -/
def Seat.assignAll (jobClass : JobClass) (place : Nat) (commands : List Command)
    (seats : List Seat) : List Assignment :=
  List.zipWith (fun command seat => seat.assign jobClass place command) commands seats

/-- The commands of a pipeline in their places.  The first one reads `source`, which has been given
the least number that was free. -/
def Pipeline.seated (p : Pipeline) (base : Descriptors) (place : Nat) (source : OpenFile)
    (pipes : List Nat) : List Assignment :=
  Seat.assignAll p.jobClass place p.commands (base.seats (base.leastFree 0) source pipes)

namespace Seat

variable {jobClass : JobClass} {place : Nat} {commands : List Command} {seats : List Seat}

theorem jobClass_assignAll : ∀ a ∈ assignAll jobClass place commands seats, a.jobClass = jobClass := by
  induction commands generalizing seats with
  | nil => nofun
  | cons command commands ih =>
      cases seats with
      | nil => nofun
      | cons seat seats =>
          rw [assignAll, List.zipWith_cons_cons, List.forall_mem_cons]
          exact ⟨rfl, ih⟩

theorem command_assignAll (h : commands.length ≤ seats.length) :
    (assignAll jobClass place commands seats).map (·.command) = commands := by
  induction commands generalizing seats with
  | nil => rfl
  | cons command commands ih =>
      cases seats with
      | nil => cases h
      | cons seat seats =>
          rw [assignAll, List.zipWith_cons_cons, List.map_cons]
          exact congrArg (command :: ·) (ih (Nat.le_of_succ_le_succ h))

end Seat

namespace Descriptors

variable {base d : Descriptors} {input reader writer fd old new pipe : Nat}
  {source file : OpenFile} {pipes : List Nat}

@[simp] theorem length_seats : (base.seats input source pipes).length = pipes.length + 1 := by
  induction pipes generalizing input source with
  | nil => rfl
  | cons pipe pipes ih => rw [seats, List.length_cons, ih, List.length_cons]

/-- What stands behind a number after a descriptor has got another one. -/
theorem file?_moved (hfile : d.file? old = some file) :
    (d.moved old new).file? fd =
      if fd = new then some file else if fd = old then none else d.file? fd := by
  by_cases hne : old = new
  · subst hne
    rw [moved, if_pos rfl]
    by_cases hfd : fd = old
    · rw [if_pos hfd, hfd, hfile]
    · rw [if_neg hfd, if_neg hfd]
  · rw [moved_eq hne hfile, file?_close, file?_assign]
    by_cases hold : fd = old
    · rw [if_pos hold, if_pos hold, if_neg (hold ▸ hne)]
    · rw [if_neg hold, if_neg hold]

/-- A number that is free is none that is open. -/
theorem ne_of_isOpen (hfree : d.isOpen fd = false) (hopen : d.isOpen new = true) : fd ≠ new := by
  rintro rfl
  rw [hfree] at hopen
  cases hopen

end Descriptors

/-- A place whose child can do what it has to, and what its command finds there. -/
structure Seat.Sound (base : Descriptors) (source : OpenFile) (pipe : Option Nat) (seat : Seat) :
    Prop where
  able : ∀ jobClass place command, (seat.assign jobClass place command).Able
  input : ∀ jobClass place command,
    (seat.assign jobClass place command).connected.file? 0 = some source
  output : ∀ jobClass place command, base.isOpen 1 = true →
    (seat.assign jobClass place command).connected.file? 1 =
      pipe.elim (base.file? 1) fun pipe => some (.pipeWriter pipe)

namespace Descriptors

variable {base : Descriptors} {input pipe : Nat} {source : OpenFile} {pipes : List Nat}

/-- The last place. -/
theorem sound_last (hfree : base.isOpen input = false) (hstdin : base.isOpen 0 = true)
    (hdiagnostics : base.file? 2 = some .diagnostics) :
    Seat.Sound base source none ⟨input, none, base.assign input source⟩ := by
  have hinput : (base.assign input source).file? input = some source := by
    rw [file?_assign, if_pos rfl]
  have hzero : input ≠ 0 := ne_of_isOpen hfree hstdin
  have htwo : input ≠ 2 := ne_of_isOpen hfree (by rw [isOpen, hdiagnostics]; rfl)
  have hconnected : ∀ jobClass place command,
      (Seat.assign ⟨input, none, base.assign input source⟩ jobClass place command).connected =
        base.assign 0 source :=
    fun _ _ _ => moved_assign hfree
  refine ⟨fun jobClass place command => ⟨?_, by simp [Seat.assign], by simp [Seat.assign], ?_⟩,
    fun _ _ _ => ?_,
    fun _ _ _ hone => ?_⟩
  · rw [isOpen, Seat.assign, hinput]
    rfl
  · rw [hconnected, file?_assign, if_neg (by decide), hdiagnostics]
  · rw [hconnected, file?_assign, if_pos rfl]
  · rw [hconnected, file?_assign, if_neg (by decide)]
    rfl

/-- A place with a pipe. -/
theorem sound_cons (hfree : base.isOpen input = false) (hstdin : base.isOpen 0 = true)
    (hdiagnostics : base.file? 2 = some .diagnostics) {reader writer : Nat}
    {d : Descriptors} (hd : Connected base input source reader writer pipe d) :
    Seat.Sound base source (some pipe) ⟨input, some (reader, writer), d⟩ := by
  obtain ⟨hri, hreader⟩ := hd.reader_base
  obtain ⟨hwr, hwi, hwriter⟩ := hd.writer_base
  have hstderr : base.isOpen 2 = true := by
    rw [isOpen, hdiagnostics]
    rfl
  have hi0 := ne_of_isOpen hfree hstdin
  have hi2 := ne_of_isOpen hfree hstderr
  have hr0 := ne_of_isOpen hreader hstdin
  have hr2 := ne_of_isOpen hreader hstderr
  have hw0 := ne_of_isOpen hwriter hstdin
  have hw2 := ne_of_isOpen hwriter hstderr
  have hfile : ∀ fd, d.file? fd = if fd = writer then some (.pipeWriter pipe)
      else if fd = reader then some (.pipeReader pipe)
      else if fd = input then some source else base.file? fd := by
    intro fd
    rw [hd.eq, file?_assign, file?_assign, file?_assign]
  -- the table after each of the two moves
  have hinput : d.file? input = some source := by
    rw [hfile, if_neg (Ne.symm hwi), if_neg (Ne.symm hri), if_pos rfl]
  have hwrite : (d.moved input 0).file? writer = some (.pipeWriter pipe) := by
    rw [file?_moved hinput, if_neg hw0, if_neg hwi, hfile, if_pos rfl]
  have hread : ((d.moved input 0).moved writer 1).file? reader =
      if reader = 1 then some (.pipeWriter pipe) else some (.pipeReader pipe) := by
    rw [file?_moved hwrite, file?_moved hinput, hfile, if_neg (Ne.symm hwr), if_neg hr0, if_neg hri,
      if_neg (Ne.symm hwr), if_pos rfl]
  have hconnected : ∀ jobClass place command fd,
      (Seat.assign ⟨input, some (reader, writer), d⟩ jobClass place command).connected.file? fd =
        if fd = reader then none
        else if fd = 1 then some (.pipeWriter pipe)
        else if fd = writer then none
        else if fd = 0 then some source
        else if fd = input then none else d.file? fd := by
    intro jobClass place command fd
    change (((d.moved input 0).moved writer 1).close reader).file? fd = _
    rw [file?_close, file?_moved hwrite, file?_moved hinput]
  refine ⟨fun jobClass place command => ⟨?_, ?_, ?_, ?_⟩, fun _ _ _ => ?_, fun _ _ _ hone => ?_⟩
  · rw [isOpen, Seat.assign, hinput]
    rfl
  · rintro _ _ ⟨⟩
    rw [isOpen, Seat.assign, hwrite]
    rfl
  · rintro _ _ ⟨⟩
    rw [isOpen, Seat.assign, hread]
    split <;> rfl
  · rw [hconnected, if_neg (Ne.symm hr2), if_neg (by decide), if_neg (Ne.symm hw2),
      if_neg (by decide), if_neg (Ne.symm hi2), hfile, if_neg (Ne.symm hw2), if_neg (Ne.symm hr2),
      if_neg (Ne.symm hi2), hdiagnostics]
  · rw [hconnected, if_neg (Ne.symm hr0), if_neg (by decide), if_neg (Ne.symm hw0), if_pos rfl]
  · rw [hconnected, if_neg (Ne.symm (ne_of_isOpen hreader hone)), if_pos rfl]
    rfl

/-- The table in which a command is launched that writes a pipe, whose ends have got the least
numbers that were free. -/
theorem connected_leastFree {d ends : Descriptors} {reader writer : Nat}
    (hfree : base.isOpen input = false) (hd : d = base.assign input source)
    (hreader : reader = d.leastFree 0) (hends : ends = d.assign reader (.pipeReader pipe))
    (hwriter : writer = ends.leastFree 0) :
    Connected base input source reader writer pipe (ends.assign writer (.pipeWriter pipe)) := by
  subst hd hreader hends hwriter
  exact ⟨hfree, leastFree_free _ 0, leastFree_free _ 0, rfl⟩

/-- **The places of a pipeline are sound.**  Each one reads the pipe that the one before it writes. -/
theorem sound_seats (hfree : base.isOpen input = false) (hstdin : base.isOpen 0 = true)
    (hdiagnostics : base.file? 2 = some .diagnostics) :
    List.Forall₂ (fun files seat => Seat.Sound base files.1 files.2 seat)
      ((source :: pipes.map .pipeReader).zip (pipes.map some ++ [none]))
      (base.seats input source pipes) := by
  induction pipes generalizing input source with
  | nil => exact .cons (sound_last hfree hstdin hdiagnostics) .nil
  | cons pipe pipes ih =>
      have hconnected : Connected base input source _ _ pipe _ :=
        connected_leastFree hfree rfl rfl rfl rfl
      exact .cons (sound_cons hfree hstdin hdiagnostics hconnected) (ih hconnected.reader_base.2)

end Descriptors

/-! ### Commands in their places -/

namespace Seat

variable {jobClass : JobClass} {place : Nat} {commands : List Command} {seats : List Seat}

/-- What is known of all places is known of the commands in them. -/
theorem forall₂_assignAll {α : Type} {files : List α} {R : α → Seat → Prop}
    {S : α → Assignment → Prop} (h : List.Forall₂ R files seats)
    (hlength : commands.length = seats.length)
    (hRS : ∀ file seat command, R file seat → S file (seat.assign jobClass place command)) :
    List.Forall₂ S files (assignAll jobClass place commands seats) := by
  induction h generalizing commands with
  | nil =>
      obtain rfl := List.eq_nil_of_length_eq_zero hlength
      exact .nil
  | cons hfirst _ ih =>
      cases commands with
      | nil => cases hlength
      | cons command commands =>
          exact .cons (hRS _ _ command hfirst) (ih (Nat.succ.inj hlength))

end Seat

namespace Pipeline

variable {p p' : Pipeline} {base : Descriptors} {place : Nat} {source : OpenFile}
  {pipes : List Nat}

/-- **Each command reads the pipe that the one before it writes**: the standard input of the first one
is `source`, and the standard output of the last one is that of the shell. -/
theorem seated_wired (hlength : p.commands.length = pipes.length + 1)
    (hstdin : base.isOpen 0 = true) (hdiagnostics : base.file? 2 = some .diagnostics) :
    List.Forall₂ (fun files a => a.connected.file? 0 = some files.1 ∧
        (base.isOpen 1 = true → a.connected.file? 1 =
          files.2.elim (base.file? 1) fun pipe => some (.pipeWriter pipe)))
      ((source :: pipes.map .pipeReader).zip (pipes.map some ++ [none]))
      (p.seated base place source pipes) := by
  refine Seat.forall₂_assignAll
    (Descriptors.sound_seats (Descriptors.leastFree_free base 0) hstdin hdiagnostics)
    (by rw [hlength, Descriptors.length_seats]) ?_
  exact fun files seat command hsound => ⟨hsound.input _ _ _, hsound.output _ _ _⟩

/-- **Every child can take its place.** -/
theorem seated_able (hlength : p.commands.length = pipes.length + 1)
    (hstdin : base.isOpen 0 = true) (hdiagnostics : base.file? 2 = some .diagnostics) :
    ∀ a ∈ p.seated base place source pipes, a.Able := by
  have hable : List.Forall₂ (fun _ a => a.Able)
      ((source :: pipes.map .pipeReader).zip (pipes.map some ++ [none]))
      (p.seated base place source pipes) := by
    refine Seat.forall₂_assignAll
      (Descriptors.sound_seats (Descriptors.leastFree_free base 0) hstdin hdiagnostics)
      (by rw [hlength, Descriptors.length_seats]) ?_
    exact fun files seat command hsound => hsound.able _ _ command
  intro a ha
  obtain ⟨i, hi, rfl⟩ := List.getElem_of_mem ha
  exact hable.get (by rw [hable.length_eq]; exact hi) hi

/-- **What a child is given depends on its own command alone**, and on none of the others. -/
theorem seated_alike (hbackground : p'.background = p.background) {i : Nat}
    (hcommand : p'.commands[i]? = p.commands[i]?) :
    (p'.seated base place source pipes)[i]? = (p.seated base place source pipes)[i]? := by
  have hclass : p'.jobClass = p.jobClass := by rw [jobClass, jobClass, hbackground]
  rw [seated, seated, Seat.assignAll, Seat.assignAll, List.getElem?_zipWith, List.getElem?_zipWith,
    hcommand, hclass]

end Pipeline

end JobShell
