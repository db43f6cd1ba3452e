/-
**The loop that reads and runs lines.**

A run without a line of its own goes round: it reports, takes a line from its input, and handles it,
until the input ends, a line asks it to exit, or it fails.  The children that it starts read the same
input.  Each round takes three pieces of it: what children took since the line before, the line, and
what children take while the line is handled.  Put together in the order of time, the pieces of all
rounds are the beginning of the input, and each line is the first one of what was left.

Main definitions:

* `JobShell.Shell.handle` — what is done with what has been read;
* `JobShell.Shell.Round`, `JobShell.Shell.Round.Valid` — a round of the loop, and what it has taken;
* `JobShell.Shell.Loops` — the rounds of a loop, and how it ends;
* `JobShell.Hungry` — a host whose children read.

Main results:

* `JobShell.Shell.readLines_loops` — the loop goes in such rounds;
* `JobShell.Shell.Loops.taken`, `JobShell.Shell.Loops.first` — what they take, and what each of them
  handles;
* `JobShell.CommandLine.runWith_shares` — **the shell and its children share the input, and neither
  loses or repeats a byte of it.**
-/

import JobShell.Proofs.Input.Shared

set_option autoImplicit false

namespace JobShell

/-- Lines that are not run: those that are too long, and those that are not well-formed. -/
def Input.Rejected : Input → Prop
  | .line text => ∃ e, parse text >>= Line.validate = .error e
  | .malformed => True
  | .endOfInput => False

namespace Shell

variable {σ : Type} [Host σ] {file : OpenFile} {calm : σ → Prop} {settings : Settings}
  {s t : Shell σ}

/-! ### Rounds -/

/-- What the shell says before it reads. -/
abbrev greeting (settings : Settings) : ShellM σ Unit :=
  greet (settings.interactive.getD false) settings.prompt

/-- What is done with what has been read. -/
def handle : Input → ShellM σ Unit
  | .line text => runLine text
  | .malformed => say 2 syntaxError
  | .endOfInput => return ()

/-- A round of the loop: the shell before it, when it has greeted, when it has taken the line, and at
the end; what has been read; and the bytes that have been taken from the input meanwhile. -/
structure Round (σ : Type) where
  start : Shell σ
  greeted : Shell σ
  /-- What children take before the line is taken. -/
  before : Bytes
  /-- What the shell takes. -/
  piece : Bytes
  input : Input
  ready : Shell σ
  /-- What children take while the line is handled. -/
  during : Bytes
  result : Except Stop Unit
  finish : Shell σ

/-- The bytes that are taken in a round, in the order of time. -/
def Round.taken (round : Round σ) : Bytes := round.before ++ round.piece ++ round.during

/-- The shell goes round. -/
structure Round.Valid (settings : Settings) (file : OpenFile) (round : Round σ) : Prop where
  greets : (greeting settings).run round.start = (.ok ⟨⟩, round.greeted)
  reads : (readInput file settings.maxLine).run round.greeted = (.ok (.ok round.input), round.ready)
  takes : Takes file settings.maxLine round.start round.before round.piece round.input round.ready
  handles : (handle round.input).run round.ready = (round.result, round.finish)
  left : Host.unread file round.ready.host = round.during ++ Host.unread file round.finish.host

/-- The rounds of a loop from `s`, the status that it gives or the reason why it stops, and the shell
then. -/
inductive Loops (settings : Settings) (file : OpenFile) :
    Shell σ → List (Round σ) → Except Stop Int → Shell σ → Prop
  /-- It stops before it has read anything more. -/
  | silenced {s t : Shell σ} {stop : Stop} :
      (greeting settings).run s = (.error stop, t) → Loops settings file s [] (.error stop) t
  | endOfInput {round : Round σ} : round.Valid settings file → round.input = .endOfInput →
      Loops settings file round.start [round] (.ok 0) round.finish
  /-- It stops while it handles a line. -/
  | stopped {round : Round σ} {stop : Stop} : round.Valid settings file →
      round.input ≠ .endOfInput → round.result = .error stop →
        Loops settings file round.start [round] (.error stop) round.finish
  /-- A line has asked it to exit. -/
  | exits {round : Round σ} {status : Int} : round.Valid settings file →
      round.input ≠ .endOfInput → round.result = .ok ⟨⟩ →
        round.finish.exitRequested = some status →
          Loops settings file round.start [round] (.ok status) round.finish
  | next {round : Round σ} {rounds : List (Round σ)} {r : Except Stop Int} {t : Shell σ} :
      round.Valid settings file → round.input ≠ .endOfInput → round.result = .ok ⟨⟩ →
        round.finish.exitRequested = none → Loops settings file round.finish rounds r t →
          Loops settings file round.start (round :: rounds) r t

/-! ### What a round does -/

section Rounds

variable {round : Round σ}

/-- **A round handles the first line of what is left.** -/
theorem Round.Valid.first (h : round.Valid settings file) :
    ∃ left, Host.unread file round.start.host = round.before ++ left ∧
      round.piece = throughNewline left ∧
        Input.answers settings.maxLine left 1 = [round.input] := by
  refine ⟨round.piece ++ Host.unread file round.ready.host, ?_, h.takes.first, h.takes.answers⟩
  rw [h.takes.left, List.append_assoc]

/-- A round takes something, unless the input is at its end. -/
theorem Round.Valid.piece_ne_nil (h : round.Valid settings file)
    (hinput : round.input ≠ .endOfInput) : round.piece ≠ [] := by
  intro hpiece
  have hfirst := h.takes.first
  rw [hpiece, List.nil_append, eq_comm, throughNewline_eq_nil] at hfirst
  have hanswers := h.takes.answers
  rw [hpiece, hfirst, List.append_nil, Input.answers_nil] at hanswers
  exact hinput (List.head_eq_of_cons_eq hanswers).symm

/-- What is taken in a round is gone after it, and nothing else. -/
theorem Round.Valid.unread_start (h : round.Valid settings file) :
    Host.unread file round.start.host = round.taken ++ Host.unread file round.finish.host := by
  rw [h.takes.left, h.left, Round.taken, List.append_assoc _ round.during]

/-- A round takes at least one byte, unless the input is at its end. -/
theorem Round.Valid.length_finish (h : round.Valid settings file)
    (hinput : round.input ≠ .endOfInput) :
    (Host.unread file round.finish.host).length < (Host.unread file round.start.host).length := by
  have hpos := List.length_pos_iff.2 (h.piece_ne_nil hinput)
  have hlength := congrArg List.length h.unread_start
  simp only [Round.taken, List.length_append] at hlength
  omega

/-- A rejected line is reported. -/
theorem handle_rejected {input : Input} (h : input.Rejected) :
    handle input = (say 2 syntaxError : ShellM σ Unit) := by
  cases input with
  | line text =>
      obtain ⟨e, he⟩ := h
      rw [handle, runLine, he]
  | malformed => rfl
  | endOfInput => exact h.elim

/-- Saying something changes nothing but the host. -/
theorem say_tells (fd : Nat) (text : Bytes) :
    Ensures (· = s) (say fd text) fun r t => r = .ok ⟨⟩ ∧ { t with host := s.host } = s := by
  refine Ensures.ofModify ?_
  rintro s rfl
  cases s.descriptors.file? fd with
  | none => exact ⟨rfl, rfl⟩
  | some out => exact ⟨rfl, rfl⟩

/-- **A line that is rejected is reported, and that is all.** -/
theorem Round.Valid.rejected (h : round.Valid settings file) (hinput : round.input.Rejected) :
    round.result = .ok ⟨⟩ ∧ round.finish = CommandLine.write 2 "Syntax error.\n" round.ready ∧
      { round.finish with host := round.ready.host } = round.ready := by
  have hhandles := h.handles
  rw [handle_rejected hinput] at hhandles
  obtain ⟨hresult, hsame⟩ := (say_tells 2 syntaxError).run hhandles
  exact ⟨hresult, (congrArg Prod.snd hhandles).symm, hsame⟩

end Rounds

section Runs

variable (hshared : Shared file calm)
include hshared

/-- Handling what has been read leaves an end of the input. -/
theorem handle_sober (input : Input) : Ensures (· = s) (handle input) (SoberOn file calm s) := by
  cases input with
  | line text => exact runLine_sober hshared text
  | malformed => exact say_sober hshared 2 syntaxError
  | endOfInput => exact SoberOn.ofPure _

/-- **A round leaves an end of the input.** -/
theorem Round.Valid.sober {round : Round σ} (h : round.Valid settings file) :
    SoberOn file calm round.start round.result round.finish := by
  have hgreets := (greet_sober hshared _ _).run h.greets
  have hreads := (readInput_sober hshared _).run h.reads
  have hhandles := (handle_sober hshared _).run h.handles
  exact hgreets.trans (hreads.trans hhandles)

/-- The shell fails to greet, or it goes round. -/
theorem exists_round (hlimit : settings.maxLine + 1 < twoTo 64) (hs : calm s.host) :
    (∃ stop t, (greeting settings).run s = (.error stop, t)) ∨
      ∃ round : Round σ, round.start = s ∧ round.Valid settings file := by
  rcases hgreet : (greeting settings).run s with ⟨stop | _, t⟩
  · exact .inl ⟨stop, t, rfl⟩
  · have hgreets := (greet_sober hshared _ _).run hgreet
    obtain ⟨hcalm, earlier, hearlier⟩ := hgreets.leaves hs
    obtain ⟨before, piece, input, u, hread, htakes⟩ := readInput_takes hshared hlimit hcalm
    have hreads := (readInput_sober hshared _).run hread
    rcases hhandle : (handle input).run u with ⟨result, v⟩
    have hhandles := (handle_sober hshared _).run hhandle
    obtain ⟨-, during, hduring⟩ := hhandles.leaves (hreads.leaves hcalm).calm
    refine .inr ⟨⟨s, t, earlier ++ before, piece, input, u, during, result, v⟩, rfl, ?_⟩
    exact ⟨hgreet, hread, htakes.earlier hearlier.symm, hhandle, hduring.symm⟩

end Runs

/-! ### What a loop does -/

/-- The loop goes no further if the shell fails to greet. -/
theorem readLines_silenced {stop : Stop} (n : Nat)
    (h : (greeting settings).run s = (.error stop, t)) :
    (readLines settings file (n + 1)).run s = (.error stop, t) := by
  rw [readLines, run_bind, h]

section Continuing

variable {round : Round σ} (h : round.Valid settings file) (n : Nat)
include h

/-- At the end of the input the loop is over. -/
theorem Round.Valid.readLines_endOfInput (hinput : round.input = .endOfInput) :
    (readLines settings file (n + 1)).run round.start = (.ok 0, round.finish) := by
  have hhandles := h.handles
  rw [hinput] at hhandles
  rw [readLines, run_bind, h.greets]
  simp only
  rw [run_bind, h.reads, hinput]
  exact congrArg _ (congrArg Prod.snd hhandles)

/-- Otherwise what has been read is handled, and then it is decided whether the loop goes on. -/
theorem Round.Valid.readLines_handles (hinput : round.input ≠ .endOfInput) :
    (readLines settings file (n + 1)).run round.start =
      (do
        handle round.input
        match (← get).exitRequested with
        | some status => return status
        | none => readLines settings file n : ShellM σ Int).run round.ready := by
  rw [readLines, run_bind, h.greets]
  simp only
  rw [run_bind, h.reads]
  cases hread : round.input with
  | endOfInput => exact absurd hread hinput
  | malformed => rfl
  | line text => rfl

theorem Round.Valid.readLines_stopped (hinput : round.input ≠ .endOfInput) {stop : Stop}
    (hresult : round.result = .error stop) :
    (readLines settings file (n + 1)).run round.start = (.error stop, round.finish) := by
  rw [h.readLines_handles n hinput, run_bind, h.handles, hresult]

theorem Round.Valid.readLines_exits (hinput : round.input ≠ .endOfInput)
    (hresult : round.result = .ok ⟨⟩) {status : Int}
    (hexit : round.finish.exitRequested = some status) :
    (readLines settings file (n + 1)).run round.start = (.ok status, round.finish) := by
  rw [h.readLines_handles n hinput, run_bind, h.handles, hresult]
  simp only
  rw [run_get_bind, hexit]
  rfl

/-- **If nothing ends the loop it goes on from where the round ends.** -/
theorem Round.Valid.readLines_next (hinput : round.input ≠ .endOfInput)
    (hresult : round.result = .ok ⟨⟩) (hexit : round.finish.exitRequested = none) :
    (readLines settings file (n + 1)).run round.start =
      (readLines settings file n).run round.finish := by
  rw [h.readLines_handles n hinput, run_bind, h.handles, hresult]
  simp only
  rw [run_get_bind, hexit]

end Continuing

/-- **The loop goes in rounds.**  Each of them takes something from the input, so that there are no
more rounds than the input has bytes. -/
theorem readLines_loops (hshared : Shared file calm) (hlimit : settings.maxLine + 1 < twoTo 64)
    {n : Nat} (hs : calm s.host) (hn : (Host.unread file s.host).length < n) :
    ∃ rounds, Loops settings file s rounds ((readLines settings file n).run s).1
      ((readLines settings file n).run s).2 := by
  induction n generalizing s with
  | zero => omega
  | succ n ih =>
      rcases exists_round hshared hlimit hs with ⟨stop, t, hgreet⟩ | ⟨round, rfl, hround⟩
      · rw [readLines_silenced n hgreet]
        exact ⟨[], .silenced hgreet⟩
      · by_cases hinput : round.input = .endOfInput
        · rw [hround.readLines_endOfInput n hinput]
          exact ⟨[round], .endOfInput hround hinput⟩
        · cases hresult : round.result with
          | error stop =>
              rw [hround.readLines_stopped n hinput hresult]
              exact ⟨[round], .stopped hround hinput hresult⟩
          | ok _ =>
              cases hexit : round.finish.exitRequested with
              | some status =>
                  rw [hround.readLines_exits n hinput hresult hexit]
                  exact ⟨[round], .exits hround hinput hresult hexit⟩
              | none =>
                  rw [hround.readLines_next n hinput hresult hexit]
                  have hleaves := (hround.sober hshared).leaves hs
                  have hless := hround.length_finish hinput
                  obtain ⟨rounds, hrounds⟩ := ih hleaves.calm (by omega)
                  exact ⟨round :: rounds, .next hround hinput hresult hexit hrounds⟩

section Loops

variable {rounds : List (Round σ)} {r : Except Stop Int}

theorem Loops.valid (h : Loops settings file s rounds r t) :
    ∀ round ∈ rounds, round.Valid settings file := by
  induction h with
  | silenced hgreet => simp
  | endOfInput hround | stopped hround | exits hround =>
      intro round hmem
      rw [List.mem_singleton.1 hmem]
      exact hround
  | next hround _ _ _ _ ih =>
      intro round hmem
      rcases List.mem_cons.1 hmem with rfl | hmem
      · exact hround
      · exact ih round hmem

/-- **What is taken is the beginning of the input**, in the order of time; children may take more
before the shell fails to greet. -/
theorem Loops.taken (hshared : Shared file calm) (h : Loops settings file s rounds r t)
    (hs : calm s.host) :
    ∃ late, Host.unread file s.host =
        rounds.flatMap Round.taken ++ late ++ Host.unread file t.host ∧
      ((∃ status, r = .ok status) → late = []) := by
  induction h with
  | silenced hgreet =>
      have hgreets := (greet_sober hshared _ _).run hgreet
      obtain ⟨-, late, hlate⟩ := hgreets.leaves hs
      refine ⟨late, hlate.symm, ?_⟩
      rintro ⟨status, hstatus⟩
      cases hstatus
  | endOfInput hround | stopped hround | exits hround =>
      refine ⟨[], ?_, fun _ => rfl⟩
      rw [hround.unread_start]
      simp
  | next hround _ _ _ _ ih =>
      obtain ⟨late, hlate, hnone⟩ := ih ((hround.sober hshared).leaves hs).calm
      refine ⟨late, ?_, hnone⟩
      rw [hround.unread_start, hlate, List.flatMap_cons]
      simp only [List.append_assoc]

/-- **Each round handles the first line of what is left**: neither an earlier round has taken it nor
a child. -/
theorem Loops.first (h : Loops settings file s rounds r t) {done rest : List (Round σ)}
    {round : Round σ} (hrounds : rounds = done ++ round :: rest) :
    ∃ left, Host.unread file s.host = done.flatMap Round.taken ++ round.before ++ left ∧
      round.piece = throughNewline left ∧
        Input.answers settings.maxLine left 1 = [round.input] := by
  -- the first round of a loop has nothing done before it
  have hfirst : ∀ {round' : Round σ} {rounds : List (Round σ)},
      round' :: rounds = round :: rest → round'.Valid settings file →
        ∃ left, Host.unread file round'.start.host = round.before ++ left ∧
          round.piece = throughNewline left ∧
            Input.answers settings.maxLine left 1 = [round.input] := by
    intro round' rounds heq hround
    obtain rfl := List.head_eq_of_cons_eq heq
    exact hround.first
  induction h generalizing done with
  | silenced => simp at hrounds
  | endOfInput hround | stopped hround | exits hround =>
      cases done with
      | nil => exact hfirst hrounds hround
      | cons round' done => simp at hrounds
  | next hround _ _ _ _ ih =>
      cases done with
      | nil => exact hfirst hrounds hround
      | cons round' done =>
          obtain rfl := List.head_eq_of_cons_eq hrounds
          obtain ⟨left, hleft, hpiece⟩ := ih (List.tail_eq_of_cons_eq hrounds)
          refine ⟨left, ?_, hpiece⟩
          rw [hround.unread_start, hleft, List.flatMap_cons]
          simp only [List.append_assoc]

/-- A loop whose jobs are accounted for stops at no assertion. -/
theorem Loops.not_assertion (hshared : Shared file calm) (h : Loops settings file s rounds r t)
    (hs : s.toSupervisor.Accounted) : r ≠ .error .assertionFailed := by
  induction h with
  | @silenced s t stop hgreet =>
      have hgreets := (greet_sober hshared _ _).run hgreet
      have hstop : stop ≠ .assertionFailed := hgreets.accounted hs
      simpa using hstop
  | endOfInput | exits => simp
  | @stopped round stop hround _ hresult =>
      have hsober := hround.sober hshared
      rw [hresult] at hsober
      have hstop : stop ≠ .assertionFailed := hsober.accounted hs
      simpa using hstop
  | next hround _ hresult _ _ ih =>
      have hsober := hround.sober hshared
      rw [hresult] at hsober
      exact ih (hsober.accounted hs)

end Loops

end Shell

/-! ### A host whose children read -/

/-- What is left of the input, how much of it each child takes, and the children that live. -/
structure Hungry where
  input : Bytes
  appetite : Nat
  living : List Int := []

namespace Hungry

instance : Host Hungry where
  refuses _ _ := none
  newPipe h := (0, h)
  nextPid _ := 0
  start pid _ h := { h with living := h.living ++ [pid] }
  write _ _ h := h
  unread _ h := h.input
  take _ n h := { h with input := h.input.drop n }
  enter _ _ _ := .error Errno.noEntry
  pathOf _ _ := .error Errno.noEntry
  kill _ _ _ := .error Errno.noProcess
  drift _ h := ([], h)
  await _ h :=
    match h.living with
    | [] => .error (.stuck, h)
    | pid :: rest =>
      .ok ((pid, .exited 0), { h with input := h.input.drop h.appetite, living := rest })

/-- The children of the host take their bytes from the front. -/
theorem shared (file : OpenFile) : Shared file fun _ : Hungry => True where
  take n _ := ⟨trivial, rfl⟩
  newPipe _ := .refl trivial
  start pid a _ := ⟨trivial, List.suffix_refl _⟩
  write out text _ := .refl trivial
  kill _ hkill := by cases hkill
  drift held _ := .refl trivial
  await := by
    rintro ⟨input, appetite, living⟩ host' held death - hawait
    cases living with
    | nil => cases hawait
    | cons pid rest =>
        cases hawait
        exact ⟨trivial, List.drop_suffix _ _⟩
  lose := by
    rintro ⟨input, appetite, living⟩ host' held loss - hawait
    cases living with
    | nil =>
        cases hawait
        exact .refl trivial
    | cons pid rest => cases hawait

/-- A shell on that host. -/
def shell (input : Bytes) (appetite : Nat) : Shell Hungry where
  host := { input := input, appetite := appetite }
  descriptors := { entries := [(0, .opened 0), (1, .output), (2, .diagnostics)] }
  place := 0
  home := none

end Hungry

/-! ### A whole run -/

namespace CommandLine

open Shell (Loops Round)

variable {σ : Type} [Host σ] {file : OpenFile} {calm : σ → Prop} {settings : Settings}
  {s : Shell σ}

/-- Without a line of its own a shell reads lines. -/
theorem serve_run (hcommand : settings.command = none)
    (hstdin : s.descriptors.file? 0 = some file) :
    (Shell.serve settings).run s =
      (Shell.readLines settings file ((Host.unread file s.host).length + 1)).run s := by
  unfold Shell.serve
  simp only [hcommand]
  rw [run_get_bind, hstdin]

/-- **The shell and its children share the input, and neither loses or repeats a byte of it.**  Let a
shell without a line of its own read from an open file that it shares with its children, whatever the
file holds, whatever the host does, and whatever the greatest length of a line, short of the greatest
number of 64 bits.  The shell goes in rounds, and

* the bytes that children and the shell take in the rounds, in the order of time, are the beginning
  of the input; children may take some more before the shell fails to greet, and the rest is left;
* each round handles the first line of what no earlier round has taken and no child, and takes that
  line only;
* a line that is too long, or not well-formed, is reported once, and nothing else happens to the
  shell;
* the run ends with 0 at the end of the input, with eight bits of the status after the first line
  that requests one, and with 1 as soon as a call fails in the shell, and then takes nothing more;
  or the shell is lost.  It does not end at an assertion. -/
theorem runWith_shares (hshared : Shared file calm) (hs : calm s.host)
    (haccounted : s.toSupervisor.Accounted) (hcommand : settings.command = none)
    (hlimit : settings.maxLine + 1 < twoTo 64) (hstdin : s.descriptors.file? 0 = some file) :
    ∃ rounds late r t, Loops settings file s rounds r t ∧
      Host.unread file s.host =
        rounds.flatMap Round.taken ++ late ++ Host.unread file t.host ∧
      (∀ done round rest, rounds = done ++ round :: rest →
        (∃ left, Host.unread file s.host = done.flatMap Round.taken ++ round.before ++ left ∧
          round.piece = throughNewline left ∧
            Input.answers settings.maxLine left 1 = [round.input]) ∧
        (round.input.Rejected →
          round.result = .ok ⟨⟩ ∧ round.finish = write 2 "Syntax error.\n" round.ready ∧
            { round.finish with host := round.ready.host } = round.ready)) ∧
      match r with
      | .ok status => late = [] ∧ runWith settings s = (.exited (status % 256).toNat, t)
      | .error (.failed e) =>
          runWith settings s = (.exited 1, write 2 (fatalText (fatalReason e)) t)
      | .error (.lost (.killed signal)) => runWith settings s = (.killed signal, t)
      | .error (.lost .stuck) => runWith settings s = (.stuck, t)
      | .error .assertionFailed => False := by
  obtain ⟨rounds, hloops⟩ := Shell.readLines_loops hshared hlimit hs (Nat.lt_succ_self _)
  rw [← serve_run hcommand hstdin] at hloops
  rcases hrun : (Shell.serve settings).run s with ⟨r, t⟩
  rw [hrun] at hloops
  obtain ⟨late, hlate, hnone⟩ := hloops.taken hshared hs
  refine ⟨rounds, late, r, t, hloops, hlate, ?_, ?_⟩
  · intro done round rest hrounds
    refine ⟨hloops.first hrounds, ?_⟩
    have hround := hloops.valid round (by simp [hrounds])
    exact hround.rejected
  · have hassertion := hloops.not_assertion hshared haccounted
    unfold runWith
    rw [hrun]
    rcases r with ((e | _ | (signal | _)) | status)
    · rfl
    · exact hassertion rfl
    · rfl
    · rfl
    · exact ⟨hnone ⟨status, rfl⟩, rfl⟩

/-- A script whose first line starts a child that takes three bytes of the script, and whose second
line is what the child has left of it. -/
theorem runWith_shares_three :
    (runWith {} (Hungry.shell (utf8 "a\nxyzexit 3\nrest") 3)).1 = .exited 3 ∧
      ∃ rounds r t,
        Loops {} (.opened 0) (Hungry.shell (utf8 "a\nxyzexit 3\nrest") 3) rounds r t ∧
          utf8 "a\nxyzexit 3\nrest" = rounds.flatMap Round.taken ++ utf8 "rest" := by
  have hrun : (runWith {} (Hungry.shell (utf8 "a\nxyzexit 3\nrest") 3)).1 = .exited 3 ∧
      (runWith {} (Hungry.shell (utf8 "a\nxyzexit 3\nrest") 3)).2.host.input = utf8 "rest" := by
    decide +kernel
  obtain ⟨rounds, late, r, t, hloops, htaken, -, hend⟩ :=
    @runWith_shares Hungry _ (.opened 0) (fun _ => True) {}
      (Hungry.shell (utf8 "a\nxyzexit 3\nrest") 3) (Hungry.shared _) trivial
      (Supervisor.accounted_initial _) rfl (by decide) rfl
  refine ⟨hrun.1, rounds, r, t, hloops, ?_⟩
  rcases r with ((e | _ | (signal | _)) | status)
  · simp [hend] at hrun
  · exact hend.elim
  · simp [hend] at hrun
  · simp [hend] at hrun
  · obtain ⟨rfl, hend⟩ := hend
    rw [hend] at hrun
    have hrest : Host.unread (.opened 0) t.host = utf8 "rest" := hrun.2
    rw [List.append_nil, hrest] at htaken
    exact htaken

end CommandLine

end JobShell
