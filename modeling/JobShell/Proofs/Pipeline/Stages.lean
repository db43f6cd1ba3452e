/-
**The stages of a pipeline on the machine.**

A pipeline is launched stage by stage: the shell makes a pipe, starts a child with both ends of it
and with the reading end of the pipe before, and goes on with the reading end of the new one.
Between these steps the machine does what it likes.  This module describes such a launch as a
relation between the machine before and after it, and shows what holds when the last stage has been
started, and stays so whatever happens then: every stage comes to its program with the right
descriptors, and the ends of every pipe are where they should be.

Main definitions:

* `JobShell.Stage` — a stage that has been started;
* `JobShell.Stage.Chained` — the stages of a pipeline, each reading the pipe of the one before;
* `JobShell.Machine.Launched` — the launch of a pipeline, stage by stage;
* `JobShell.Machine.Arranged` — every stage as it should be, and every pipe in custody;
* `JobShell.Machine.Wired` — what this means for the processes.

Main results:

* `JobShell.Machine.Launched.custody`, `JobShell.Machine.Launched.custody_source` — the pipes so far
  during a launch;
* `JobShell.Machine.Launched.arranged` — the machine when the last stage has been started;
* `JobShell.Machine.Arranged.advances`, `JobShell.Machine.Arranged.wired` — and afterwards.
-/

import JobShell.Proofs.Machine.Custody
import JobShell.Proofs.Machine.Hosting

set_option autoImplicit false

namespace JobShell

/-- A stage of a pipeline that has been started: its process, its command, what it is to read, and
the pipe that it is to write, unless it is the last one. -/
structure Stage where
  pid : Int
  command : Command
  source : OpenFile
  pipe : Option Nat

namespace Stage

/-- What a stage is to write. -/
def sink (out : OpenFile) (st : Stage) : OpenFile :=
  match st.pipe with
  | some i => .pipeWriter i
  | none => out

/-- What a stage must have when it comes to its program. -/
def Ready (base : Descriptors) (out : OpenFile) (st : Stage) (d : Descriptors)
    (opened : List PathOpening) : Prop :=
  Arrival.Wired base st.command.redirections st.source (st.sink out) ⟨d, opened⟩

/-- The stages of the first commands of a pipeline, each reading the pipe of the one before it. -/
inductive Chained : OpenFile → List Command → List Stage → Prop where
  | nil (source : OpenFile) (commands : List Command) : Chained source commands []
  | last (pid : Int) (command : Command) (source : OpenFile) :
      Chained source [command] [⟨pid, command, source, none⟩]
  | cons {source : OpenFile} {pid : Int} {i : Nat} {command next : Command} {rest : List Command}
      {stages : List Stage} : Chained (.pipeReader i) (next :: rest) stages →
        Chained source (command :: next :: rest) (⟨pid, command, source, some i⟩ :: stages)

end Stage

namespace Assignment

variable {base : Descriptors} {source sink file : OpenFile} {a : Assignment}

/-- What a stage is given: the descriptors of the shell, what it is to read, and its pipe. -/
theorem Seated.holds (h : a.Seated base source sink) (hfile : a.descriptors.holds file = true) :
    base.holds file = true ∨ file = source ∨
      a.pipe ≠ none ∧ ∃ i, sink = .pipeWriter i ∧ file.pipe? = some i := by
  cases h with
  | last hpipe hfree hd hsink =>
      rw [hd] at hfile
      rcases Descriptors.holds_assign hfile with rfl | hfile
      · exact .inr (.inl rfl)
      · exact .inl hfile
  | @writer reader writer i hpipe hconnected hsink =>
      have hsome : a.pipe ≠ none := by simp [hpipe]
      rw [hconnected.eq] at hfile
      rcases Descriptors.holds_assign hfile with rfl | hfile
      · exact .inr (.inr ⟨hsome, i, hsink, rfl⟩)
      · rcases Descriptors.holds_assign hfile with rfl | hfile
        · exact .inr (.inr ⟨hsome, i, hsink, rfl⟩)
        · rcases Descriptors.holds_assign hfile with rfl | hfile
          · exact .inr (.inl rfl)
          · exact .inl hfile

end Assignment

/-- A stage is there, and comes to its program with what it must have. -/
structure Stage.Started (base : Descriptors) (out : OpenFile) (m : Machine) (st : Stage) :
    Prop where
  process : ∃ v ∈ m.standings, v.pid = st.pid ∧ v.root = st.pid
  lt : st.pid < m.nextPid
  heeds : ∀ v ∈ m.standings, v.pid = st.pid → v.Heeds (st.Ready base out)

namespace Machine

/-- Whatever happens without the shell starting a child. -/
abbrev Runs : Machine → Machine → Prop := HappensMany fun _ => False

/-- The launch of the first commands of a pipeline by a shell with the table `base`: the machine
before it, the stages, and the machine when the last one has been started. -/
inductive Launched (base : Descriptors) (out : OpenFile) :
    OpenFile → List Command → Machine → List Stage → Machine → Prop where
  | nil (source : OpenFile) (commands : List Command) (m : Machine) :
      Launched base out source commands m [] m
  | last {source : OpenFile} {m m₁ : Machine} {a : Assignment} : Runs m m₁ →
      a.Seated base source out → a.pipe = none →
        Launched base out source [a.command] m [⟨m₁.nextPid, a.command, source, none⟩]
          (m₁.start m₁.nextPid a)
  | cons {source : OpenFile} {m m₁ m₂ m' : Machine} {a : Assignment} {next : Command}
      {rest : List Command} {stages : List Stage} : Runs m m₁ → Runs m₁.addPipe.2 m₂ →
      a.Seated base source (.pipeWriter m₁.pipes.length) →
      Launched base out (.pipeReader m₁.pipes.length) (next :: rest) (m₂.start m₂.nextPid a) stages m' →
        Launched base out source (a.command :: next :: rest) m
          (⟨m₂.nextPid, a.command, source, some m₁.pipes.length⟩ :: stages) m'

/-- Every stage comes to its program as it should, and every pipe is written by its stage and read
by the next one.  A stage has the reading end of its own pipe until it comes to its program. -/
def Arranged (base : Descriptors) (out : OpenFile) (m : Machine) : List Stage → Prop
  | [] => True
  | st :: rest =>
      st.Started base out m ∧
      (∀ i, st.pipe = some i → m.Custody (.pipeWriter i) (some st.pid) none ∧
        m.Custody (.pipeReader i) (rest.head?.map (·.pid)) (some st.pid)) ∧
      Arranged base out m rest

variable {base : Descriptors} {out source file : OpenFile} {commands : List Command}
  {m m' : Machine} {stages : List Stage} {keeper lender : Option Int}

/-- The stages are those of the first commands, in order. -/
theorem Launched.chained (h : Launched base out source commands m stages m') :
    Stage.Chained source commands stages := by
  induction h with
  | nil source commands => exact .nil source commands
  | last => exact .last _ _ _
  | cons _ _ _ _ ih => exact .cons ih

/-! ### What happens during a launch -/

/-- The files of pipes that a table has are those of pipes that there are. -/
def Covers (m : Machine) (base : Descriptors) : Prop :=
  ∀ file i, file.pipe? = some i → base.holds file = true → i < m.pipes.length

theorem Runs.pipes_le (h : Runs m m') (hm : m.Sound) : m.pipes.length ≤ m'.pipes.length :=
  AdvancesMany.pipes_le (h.advances hm.numbered)

theorem Runs.sound (h : Runs m m') (hm : m.Sound) : m'.Sound :=
  AdvancesMany.sound (h.advances hm.numbered) hm

theorem Runs.custody (h : Runs m m') (hm : m.Sound) (hcustody : m.Custody file keeper lender) :
    m'.Custody file keeper lender :=
  AdvancesMany.custody (h.advances hm.numbered) (fun _ ha => ha.elim) hcustody

theorem runs_addPipe (m : Machine) : Runs m m.addPipe.2 := .single .pipe

theorem Sound.addPipe (hm : m.Sound) : m.addPipe.2.Sound := m.runs_addPipe.sound hm

theorem length_addPipe : m.addPipe.2.pipes.length = m.pipes.length + 1 := by
  simp [Machine.addPipe]

/-- A stage is started: ids stay unique, and no end is given away of a pipe that is still to be
made. -/
theorem Sound.start {a : Assignment} (hm : m.Sound) (ha : m.Covers a.descriptors) :
    (m.start m.nextPid a).Sound := by
  have hstart : Advances (· = a) m (m.start m.nextPid a) := start_advances rfl
  refine hstart.sound hm ?_
  rintro _ rfl file i hfile hi
  rw [Bool.eq_false_iff]
  intro hholds
  have hlt := ha file i hfile hholds
  exact absurd hi (by simpa [Machine.start] using hlt)

/-- A machine in order, and a shell that has no end of a pipe that is still to be made. -/
structure Fit (m : Machine) (base : Descriptors) (source : OpenFile) : Prop where
  sound : m.Sound
  base : m.Covers base
  source : ∀ i, source.pipe? = some i → i < m.pipes.length

/-- The last stage is started. -/
theorem Fit.last {m₁ : Machine} {a : Assignment} (hm : m.Fit base source) (h₁ : Runs m m₁)
    (ha : a.Seated base source out) (hpipe : a.pipe = none) :
    m₁.Sound ∧ (m₁.start m₁.nextPid a).Sound := by
  have hm₁ := h₁.sound hm.sound
  have hle := h₁.pipes_le hm.sound
  refine ⟨hm₁, hm₁.start fun file i hfile hholds => ?_⟩
  rcases ha.holds hholds with hbase | rfl | ⟨hsome, -⟩
  · exact Nat.lt_of_lt_of_le (hm.base file i hfile hbase) hle
  · exact Nat.lt_of_lt_of_le (hm.source i hfile) hle
  · exact absurd hpipe hsome

/-- A stage is started that writes a new pipe. -/
theorem Fit.cons {m₁ m₂ : Machine} {a : Assignment} (hm : m.Fit base source) (h₁ : Runs m m₁)
    (h₂ : Runs m₁.addPipe.2 m₂) (ha : a.Seated base source (.pipeWriter m₁.pipes.length)) :
    m₁.Sound ∧ m₂.Sound ∧ m.pipes.length ≤ m₁.pipes.length ∧ m₁.pipes.length < m₂.pipes.length ∧
      (m₂.start m₂.nextPid a).Fit base (.pipeReader m₁.pipes.length) := by
  have hm₁ := h₁.sound hm.sound
  have hm₂ := h₂.sound hm₁.addPipe
  have hle₁ := h₁.pipes_le hm.sound
  have hle₂ := h₂.pipes_le hm₁.addPipe
  rw [length_addPipe] at hle₂
  refine ⟨hm₁, hm₂, hle₁, hle₂, hm₂.start fun file i hfile hholds => ?_, ?_, ?_⟩
  · rcases ha.holds hholds with hbase | rfl | ⟨-, j, hj, hfile'⟩
    · exact Nat.lt_of_lt_of_le (hm.base file i hfile hbase) (by omega)
    · exact Nat.lt_of_lt_of_le (hm.source i hfile) (by omega)
    · cases hj
      obtain rfl : m₁.pipes.length = i := Option.some.inj (hfile'.symm.trans hfile)
      exact hle₂
  · exact fun file i hfile hholds => Nat.lt_of_lt_of_le (hm.base file i hfile hholds)
      (by change m.pipes.length ≤ m₂.pipes.length; omega)
  · rintro i ⟨⟩
    exact hle₂

theorem Lends.start {a : Assignment} (h : m.Lends file lender) :
    (m.start m.nextPid a).Lends file lender := by
  have hstart : Advances (fun _ => True) m (m.start m.nextPid a) := start_advances trivial
  exact hstart.lends h

/-- A file that is none of the next stage's keeps its keeper. -/
theorem Custody.start_other {a : Assignment} (h : m.Custody file keeper lender)
    (ha : a.descriptors.holds file = false) :
    (m.start m.nextPid a).Custody file keeper lender :=
  h.start (fun _ => id) (fun _ => id) h.lends.start (by simp [ha])

/-- **During a launch the pipes so far stay with their keepers**: neither the shell nor the pipe
that the next stage reads brings them into the hands of another stage. -/
theorem Launched.custody (h : Launched base out source commands m stages m')
    (hm : m.Fit base source) (hpipe : file.pipe? ≠ none) (hbase : base.holds file = false)
    (hsource : file ≠ source) (hcustody : m.Custody file keeper lender) :
    m'.Custody file keeper lender := by
  induction h with
  | nil => exact hcustody
  | @last source m m₁ a h₁ ha hnone =>
      refine (h₁.custody hm.sound hcustody).start_other ?_
      rw [Bool.eq_false_iff]
      intro hholds
      rcases ha.holds hholds with hholds | rfl | ⟨hsome, -⟩
      · simp [hbase] at hholds
      · exact hsource rfl
      · exact hsome hnone
  | @cons source m m₁ m₂ m' a next rest stages h₁ h₂ ha _ ih =>
      obtain ⟨hm₁, hm₂, hle₁, hle₂, hfit⟩ := hm.cons h₁ h₂ ha
      have hcustody₁ := h₁.custody hm.sound hcustody
      have hcustody₂ := h₂.custody hm₁.addPipe (m₁.runs_addPipe.custody hm₁ hcustody₁)
      -- the pipe of the next stage is another one
      have hnew : file.pipe? ≠ some m₁.pipes.length := by
        intro hfile
        exact absurd (hcustody.made _ hfile) (by omega)
      refine ih hfit (by rintro rfl; exact hnew rfl) (hcustody₂.start_other ?_)
      rw [Bool.eq_false_iff]
      intro hholds
      rcases ha.holds hholds with hholds | rfl | ⟨-, j, hj, hfile⟩
      · simp [hbase] at hholds
      · exact hsource rfl
      · cases hj
        exact hnew hfile

/-- **The pipe that the next stage reads is kept by it from then on.** -/
theorem Launched.custody_source (h : Launched base out source commands m stages m')
    (hm : m.Fit base source) (hpipe : source.pipe? ≠ none) (hbase : base.holds source = false)
    (hcustody : m.Custody source none lender) :
    m'.Custody source (stages.head?.map (·.pid)) lender := by
  have hstart : ∀ {m : Machine} {a : Assignment}, m.Custody source none lender →
      (m.start m.nextPid a).Custody source (some m.nextPid) lender := fun hcustody =>
    hcustody.start (by simp) (fun _ => id) hcustody.lends.start fun _ => .inl rfl
  cases h with
  | nil => exact hcustody
  | last h₁ ha hnone => exact hstart (h₁.custody hm.sound hcustody)
  | @cons _ _ m₁ m₂ _ a next rest stages h₁ h₂ ha hrest =>
      obtain ⟨hm₁, hm₂, hle₁, hle₂, hfit⟩ := hm.cons h₁ h₂ ha
      have hcustody₁ := h₁.custody hm.sound hcustody
      have hcustody₂ := h₂.custody hm₁.addPipe (m₁.runs_addPipe.custody hm₁ hcustody₁)
      refine hrest.custody hfit hpipe hbase ?_ (hstart hcustody₂)
      rintro rfl
      exact absurd (hm.source _ rfl) (by omega)

/-- A launch is made of steps of the standings. -/
theorem Launched.advances (h : Launched base out source commands m stages m')
    (hm : m.Fit base source) : AdvancesMany (fun _ => True) m m' := by
  have hruns : ∀ {m m' : Machine}, Runs m m' → m.Sound → AdvancesMany (fun _ => True) m m' :=
    fun h hm => HappensMany.advances (HappensMany.mono h fun _ => False.elim) hm.numbered
  induction h with
  | nil => exact .refl
  | last h₁ ha hnone => exact (hruns h₁ hm.sound).tail (start_advances trivial)
  | @cons source m m₁ m₂ m' a next rest stages h₁ h₂ ha _ ih =>
      obtain ⟨hm₁, hm₂, -, -, hfit⟩ := hm.cons h₁ h₂ ha
      exact (((hruns h₁ hm.sound).trans (hruns m₁.runs_addPipe hm₁)).trans
        ((hruns h₂ hm₁.addPipe).tail (start_advances trivial))).trans (ih hfit)

/-- A launch leaves the machine in order. -/
theorem Launched.sound (h : Launched base out source commands m stages m')
    (hm : m.Fit base source) : m'.Sound := by
  induction h with
  | nil => exact hm.sound
  | last h₁ ha hnone => exact (hm.last h₁ ha hnone).2
  | cons h₁ h₂ ha _ ih => exact ih (hm.cons h₁ h₂ ha).2.2.2.2

/-- The pipes of the stages are new. -/
theorem Launched.pipe_range (h : Launched base out source commands m stages m')
    (hm : m.Fit base source) {st : Stage} (hst : st ∈ stages) {i : Nat} (hi : st.pipe = some i) :
    m.pipes.length ≤ i ∧ i < m'.pipes.length := by
  induction h with
  | nil => cases hst
  | last =>
      obtain rfl := List.mem_singleton.1 hst
      cases hi
  | @cons source m m₁ m₂ m' a next rest stages h₁ h₂ ha hrest ih =>
      obtain ⟨-, -, hle₁, hle₂, hfit⟩ := hm.cons h₁ h₂ ha
      have hle₃ := AdvancesMany.pipes_le (hrest.advances hfit)
      have hlength : (m₂.start m₂.nextPid a).pipes.length = m₂.pipes.length := rfl
      rcases List.mem_cons.1 hst with rfl | hst
      · cases hi
        omega
      · have := ih hfit hst
        omega

/-- A launch gives away only what the shell has, what the first stage is to read, and pipes that
are new. -/
theorem Launched.happens {launching : Assignment → Prop}
    (h : Launched base out source commands m stages m') (hm : m.Fit base source)
    (hlaunching : ∀ a, (∀ file, a.descriptors.holds file = true →
      base.holds file = true ∨ file = source ∨
        ∃ i, file.pipe? = some i ∧ m.pipes.length ≤ i) → launching a) :
    HappensMany launching m m' := by
  have hruns : ∀ {m m' : Machine}, Runs m m' → HappensMany launching m m' :=
    fun h => HappensMany.mono h fun _ => False.elim
  induction h with
  | nil => exact .refl
  | last h₁ ha hnone =>
      refine (hruns h₁).tail (.start (hlaunching _ fun file hholds => ?_))
      rcases ha.holds hholds with hbase | hsource | ⟨hsome, -⟩
      · exact .inl hbase
      · exact .inr (.inl hsource)
      · exact absurd hnone hsome
  | @cons source m m₁ m₂ m' a next rest stages h₁ h₂ ha _ ih =>
      -- the pipe to the next stage is new, and those after it are newer
      obtain ⟨-, -, hle₁, hle₂, hfit⟩ := hm.cons h₁ h₂ ha
      refine (((hruns h₁).trans (hruns m₁.runs_addPipe)).trans ((hruns h₂).tail
        (.start (hlaunching _ fun file hholds => ?_)))).trans
        (ih hfit fun b hb => hlaunching b fun file hholds => ?_)
      · rcases ha.holds hholds with hbase | hsource | ⟨-, j, hj, hfile⟩
        · exact .inl hbase
        · exact .inr (.inl hsource)
        · cases hj
          exact .inr (.inr ⟨_, hfile, hle₁⟩)
      · rcases hb file hholds with hbase | rfl | ⟨i, hfile, hi⟩
        · exact .inl hbase
        · exact .inr (.inr ⟨_, rfl, hle₁⟩)
        · have hlength : (m₂.start m₂.nextPid a).pipes.length = m₂.pipes.length := rfl
          exact .inr (.inr ⟨i, hfile, by omega⟩)

/-- At the end of a launch the last stage has just been started. -/
theorem Launched.getLast? (h : Launched base out source commands m stages m') {st : Stage}
    (hst : stages.getLast? = some st) :
    ∃ m₀ a, m' = Machine.start m₀ m₀.nextPid a ∧ st.pid = m₀.nextPid := by
  induction h with
  | nil => cases hst
  | last => exact ⟨_, _, rfl, by rw [← Option.some.inj hst]; rfl⟩
  | @cons source m m₁ m₂ m' a next rest stages h₁ h₂ ha hrest ih =>
      cases hrest with
      | nil => exact ⟨_, _, rfl, by rw [← Option.some.inj hst]; rfl⟩
      | last => exact ih (by simpa using hst)
      | cons => exact ih (by simpa using hst)

/-! ### The machine after a launch -/

/-- A stage that comes to its program has an end of its pipe other than the one that it writes only
if it has opened that end by a path. -/
theorem ready_holds {st : Stage} {d : Descriptors} {opened : List PathOpening} {i : Nat}
    (h : st.Ready base out d opened) (hbase : base.holds (.pipeReader i) = false)
    (hsource : st.source ≠ .pipeReader i) (hpipe : st.pipe = some i)
    (hholds : d.holds (.pipeReader i) = true) : ∃ o ∈ opened, o.file = .pipeReader i := by
  have hsink : st.sink out = .pipeWriter i := by simp [Stage.sink, hpipe]
  rcases h.laid.holds hholds with hread | hwrite | hbase'
  · rcases latest_mem (·.read) opened st.source with hlatest | ⟨o, ho, hlatest⟩
    · exact absurd (hlatest.symm.trans hread.symm) hsource
    · exact ⟨o, ho, hlatest.trans hread.symm⟩
  · rcases latest_mem (·.write) opened (st.sink out) with hlatest | ⟨o, ho, hlatest⟩
    · rw [hsink] at hlatest hwrite
      rw [hlatest] at hwrite
      cases hwrite
    · exact ⟨o, ho, hlatest.trans hwrite.symm⟩
  · simp [hbase] at hbase'

/-- The child of a stage has been started with what it is to have. -/
theorem Sound.started {a : Assignment} {st : Stage} (hm : m.Sound)
    (ha : a.Seated base st.source (st.sink out)) (hpid : st.pid = m.nextPid)
    (hcommand : st.command = a.command) (h0 : base.isOpen 0 = true) (h1 : base.isOpen 1 = true) :
    st.Started base out (m.start m.nextPid a) := by
  refine ⟨⟨_, mem_standings_start.2 (.inr rfl), hpid.symm, hpid.symm⟩, ?_, ?_⟩
  · rw [hpid]
    exact Int.lt_add_one_of_le (Int.le_max_left ..)
  · rw [hpid]
    refine hm.numbered.heeds_start ?_
    have hrun := Assignment.run_heeds ha h0 h1 m.environment
    rw [← hcommand] at hrun
    exact hrun

theorem started_advances {launching : Assignment → Prop} {st : Stage} (h : st.Started base out m)
    (hadvances : AdvancesMany launching m m') : st.Started base out m' := by
  refine ⟨?_, Int.lt_of_lt_of_le h.lt (AdvancesMany.nextPid_le hadvances),
    AdvancesMany.heeds hadvances h.lt h.heeds⟩
  induction hadvances with
  | refl => exact h.process
  | tail _ hstep ih =>
      obtain ⟨v, hv, hpid, hroot⟩ := ih
      obtain ⟨w, hw, hnext⟩ := hstep.future hv
      exact ⟨w, hw, hnext.pid_eq.trans hpid, hnext.root_eq.trans hroot⟩

/-- **The machine when the last stage has been started.** -/
theorem Launched.arranged (h : Launched base out source commands m stages m')
    (hm : m.Fit base source) (h0 : base.isOpen 0 = true) (h1 : base.isOpen 1 = true) :
    m'.Arranged base out stages := by
  induction h with
  | nil => trivial
  | @last source m m₁ a h₁ ha hnone =>
      obtain ⟨hm₁, -⟩ := hm.last h₁ ha hnone
      exact ⟨hm₁.started ha rfl rfl h0 h1, fun i hi => (Option.some_ne_none i hi.symm).elim,
        trivial⟩
  | @cons source m m₁ m₂ m' a next rest stages h₁ h₂ ha hrest ih =>
      obtain ⟨hm₁, hm₂, hle₁, hle₂, hfit⟩ := hm.cons h₁ h₂ ha
      have hstarted : Stage.Started base out (m₂.start m₂.nextPid a)
          ⟨m₂.nextPid, a.command, source, some m₁.pipes.length⟩ :=
        hm₂.started ha rfl rfl h0 h1
      have hadvances := hrest.advances hfit
      have hsource : source ≠ .pipeReader m₁.pipes.length := by
        rintro rfl
        exact absurd (hm.source _ rfl) (by omega)
      have hbase : ∀ file : OpenFile, file.pipe? = some m₁.pipes.length →
          base.holds file = false := by
        intro file hfile
        rw [Bool.eq_false_iff]
        intro hholds
        exact absurd (hm.base file _ hfile hholds) (by omega)
      -- nobody has an end of the new pipe before the stage is started
      have hnew : ∀ file : OpenFile, file.pipe? = some m₁.pipes.length →
          m₂.Custody file none none := by
        intro file hfile
        refine h₂.custody hm₁.addPipe ⟨?_, lends_none, ?_⟩
        · intro i hi
          obtain rfl : m₁.pipes.length = i := Option.some.inj (hfile.symm.trans hi)
          rw [length_addPipe]
          exact Nat.lt_succ_self _
        · exact hm₁.fresh file _ hfile (Nat.le_refl _)
      have hwriter : (m₂.start m₂.nextPid a).Custody (.pipeWriter m₁.pipes.length)
          (some m₂.nextPid) none :=
        (hnew _ rfl).start (by simp) (by simp) lends_none fun _ => .inl rfl
      have hlends : (m₂.start m₂.nextPid a).Lends (.pipeReader m₁.pipes.length)
          (some m₂.nextPid) := by
        rintro pid ⟨⟩
        exact ⟨hstarted.lt, _, hstarted.heeds, fun d opened hd =>
          ready_holds hd (hbase _ rfl) hsource rfl⟩
      have hreader : (m₂.start m₂.nextPid a).Custody (.pipeReader m₁.pipes.length) none
          (some m₂.nextPid) :=
        (hnew _ rfl).start (by simp) (by simp) hlends fun _ => .inr rfl
      refine ⟨started_advances hstarted hadvances, ?_, ih hfit⟩
      rintro i ⟨⟩
      exact ⟨hrest.custody hfit (by simp [OpenFile.pipe?]) (hbase _ rfl) (by simp) hwriter,
        hrest.custody_source hfit (by simp [OpenFile.pipe?]) (hbase _ rfl) hreader⟩

/-- An assignment that gives away no end of the stages' pipes. -/
def Clear (stages : List Stage) (a : Assignment) : Prop :=
  ∀ st ∈ stages, ∀ i, st.pipe = some i →
    a.descriptors.holds (.pipeReader i) = false ∧ a.descriptors.holds (.pipeWriter i) = false

/-- **What has been arranged stays so**, whatever happens. -/
theorem Arranged.advances {launching : Assignment → Prop} (h : m.Arranged base out stages)
    (hadvances : AdvancesMany launching m m') (hclear : ∀ a, launching a → Clear stages a) :
    m'.Arranged base out stages := by
  induction stages with
  | nil => trivial
  | cons st rest ih =>
      obtain ⟨hstarted, hcustody, hrest⟩ := h
      refine ⟨started_advances hstarted hadvances, fun i hi => ?_, ih hrest ?_⟩
      · have hst : ∀ a, launching a → a.descriptors.holds (.pipeReader i) = false ∧
            a.descriptors.holds (.pipeWriter i) = false :=
          fun a ha => hclear a ha st (List.mem_cons_self ..) i hi
        exact ⟨AdvancesMany.custody hadvances (fun a ha => (hst a ha).2) (hcustody i hi).1,
          AdvancesMany.custody hadvances (fun a ha => (hst a ha).1) (hcustody i hi).2⟩
      · exact fun a ha st' hst' => hclear a ha st' (List.mem_cons_of_mem _ hst')

/-! ### What that means for the processes -/

/-- What holds of the stages of a pipeline, which a shell with the table `base` has started, and of
their pipes.  A process belongs to a stage if it is that stage's or descends from it. -/
structure Wired (m : Machine) (base : Descriptors) (out : OpenFile) (stages : List Stage) :
    Prop where
  /-- Every stage has a process. -/
  processes : ∀ st ∈ stages, ∃ p ∈ m.processes, p.pid = st.pid ∧ p.root = st.pid
  /-- Whenever a stage comes to its program its descriptors are as they should be. -/
  arrivals : ∀ st ∈ stages, ∀ p ∈ m.processes, p.pid = st.pid → ∀ a ∈ p.arrivals,
    a.Wired base st.command.redirections st.source (st.sink out)
  /-- The writing end of a pipe is open only in its stage, unless it has been opened by a path. -/
  writers : ∀ st ∈ stages, ∀ i, st.pipe = some i → m.HasOpened (.pipeWriter i) ∨
    ∀ p ∈ m.processes, p.descriptors.holds (.pipeWriter i) = true → p.root = st.pid
  /-- When the stage has come to its program or ended, the reading end of its pipe is open only in
  the next stage, unless it has been opened by a path. -/
  readers : ∀ n st i, stages[n]? = some st → st.pipe = some i →
    (∀ p ∈ m.processes, p.pid = st.pid → p.arrivals ≠ [] ∨ p.alive = false) →
      m.HasOpened (.pipeReader i) ∨
        ∀ p ∈ m.processes, p.descriptors.holds (.pipeReader i) = true →
          ∃ next, stages[n + 1]? = some next ∧ p.root = next.pid
  /-- When a stage has ended, a reader of its pipe is told so, unless the writing end has been opened
  by a path. -/
  ends : ∀ st ∈ stages, ∀ i, st.pipe = some i → ¬ m.HasOpened (.pipeWriter i) →
    (∀ p ∈ m.processes, p.root = st.pid → p.alive = false) →
      ∀ held : Descriptors, held.holds (.pipeWriter i) = false → m.pipe i = [] →
        ∀ p fd count, p.descriptors.file? fd = some (.pipeReader i) →
          m.read held p fd count = .reply (.ok []) m

/-- A stage whose pipe is in custody. -/
theorem Arranged.mem (h : m.Arranged base out stages) {n : Nat} {st : Stage}
    (hst : stages[n]? = some st) :
    st.Started base out m ∧ ∀ i, st.pipe = some i →
      m.Custody (.pipeWriter i) (some st.pid) none ∧
        m.Custody (.pipeReader i) (stages[n + 1]?.map (·.pid)) (some st.pid) := by
  induction stages generalizing n with
  | nil => simp at hst
  | cons first rest ih =>
      obtain ⟨hstarted, hcustody, hrest⟩ := h
      cases n with
      | zero =>
          obtain rfl : first = st := by simpa using hst
          refine ⟨hstarted, fun i hi => ?_⟩
          have hhead : (first :: rest)[0 + 1]? = rest.head? := by cases rest <;> rfl
          rw [hhead]
          exact hcustody i hi
      | succ n => exact ih hrest (by simpa using hst)

/-- **What is arranged is wired.** -/
theorem Arranged.wired (h : m.Arranged base out stages) (htidy : m.Tidy) :
    m.Wired base out stages := by
  have hmem : ∀ st ∈ stages, st.Started base out m ∧ ∀ i, st.pipe = some i →
      m.Custody (.pipeWriter i) (some st.pid) none := by
    intro st hst
    obtain ⟨n, hn⟩ := List.getElem?_of_mem hst
    exact ⟨(h.mem hn).1, fun i hi => ((h.mem hn).2 i hi).1⟩
  constructor
  · intro st hst
    obtain ⟨v, hv, hpid, hroot⟩ := (hmem st hst).1.process
    obtain ⟨p, hp, rfl⟩ := List.mem_map.1 hv
    exact ⟨p, hp, hpid, hroot⟩
  · intro st hst p hp hpid a ha
    exact ((hmem st hst).1.heeds p.standing (List.mem_map_of_mem hp) hpid).arrivals a ha
  · intro st hst i hi
    rcases ((hmem st hst).2 i hi).kept with hopened | hkept
    · exact .inl hopened
    · refine .inr fun p hp hholds => ?_
      rcases hkept p hp hholds with hroot | ⟨hlender, -⟩
      · exact (Option.some.inj hroot).symm
      · cases hlender
  · intro n st i hst hi harrived
    rcases ((h.mem hst).2 i hi).2.kept with hopened | hkept
    · exact .inl hopened
    · refine .inr fun p hp hholds => ?_
      -- who holds the end is the next stage, or the stage itself before it has taken its own places
      rcases hkept p hp hholds with hroot | ⟨hlender, harrivals⟩
      · obtain ⟨next, hnext, hpid⟩ := Option.map_eq_some_iff.1 hroot
        exact ⟨next, hnext, hpid.symm⟩
      · rcases harrived p hp (Option.some.inj hlender).symm with hne | hended
        · exact absurd harrivals hne
        · simp [htidy p hp hended, Descriptors.holds] at hholds
  · intro st hst i hi hopened hended held hheld hempty p fd count hfd
    rcases ((hmem st hst).2 i hi).kept with hopened' | hkept
    · exact absurd hopened' hopened
    · exact read_eq_nil hfd hempty (isWritten_eq_false htidy hkept hheld hended)

end Machine

end JobShell
