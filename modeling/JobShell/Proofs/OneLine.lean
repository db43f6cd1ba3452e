/-
**A line is run alike whether it is an argument or the input.**

A shell that is given a line as an argument runs it and is done.  A shell that finds the line in
its input reports what has ended, reads, runs the line, and looks for more.  Whatever it does besides
running the line asks nothing of the host but to block a signal, and adds nothing to what has
happened but that children have ended and have been reaped.  The two tables of descriptors differ by
the descriptor that is read from, and so the line does the same in both shells.

Main definitions:

* `JobShell.Shell.initial` — a shell that has just been started;
* `JobShell.Shell.Idled`, `JobShell.Shell.Lags` — a shell to which nothing has happened but that
  children have ended, and one that differs from another no further;
* `JobShell.CommandLine.EndsWith` — how a run ends whose one line has an outcome.

Main results:

* `JobShell.Shell.readLines_initial`, `JobShell.Shell.readLines_spent` — the one line is read as a
  whole, and nothing is read after it;
* `JobShell.Shell.serve_abreast`, `JobShell.CommandLine.run_abreast` — the two shells differ no
  further at the end;
* `JobShell.CommandLine.run_argument_as_input` — **both runs end alike and have done the same**;
* `JobShell.CommandLine.run_argument_unlike_input` — not so if a child tells the two tables apart or
  adds to the input, or if one of the tables is full.
-/

import JobShell.FreshRun
import JobShell.Proofs.Loop
import JobShell.Proofs.Pipeline.Forks
import JobShell.Proofs.Pipeline.Shortage
import JobShell.Proofs.Twin.Pipelines
import JobShell.Proofs.Twin.Recorded

set_option autoImplicit false

namespace JobShell

/-- A child has ended, or has been reaped after that. -/
def Event.OfEnd : Event → Prop
  | .died _ _ | .reaped _ _ => True
  | _ => False

/-! ### While nothing is asked -/

namespace Supervisor

variable {σ : Type} [Host σ] {s t : Supervisor σ}

/-- In a lull children end and are reaped. -/
theorem Lulls.adds (h : Lulls s t) : Adds Event.OfEnd s t := by
  induction h with
  | refl => exact .refl s
  | tail _ hlull ih =>
      cases hlull with
      | drift held => exact ih.trans (drifted_adds held fun _ _ => trivial)
      | signal => exact ih
      | reap hdead hdecode => exact ih.trans (.single rfl trivial)

/-- **Collecting asks nothing of the host** but to block the signal. -/
theorem collectCompleted_lulls (hs : s.Accounted) {held : Descriptors}
    (hnot : Host.refuses .sigprocmask (s.drifted held).host = none) :
    Ensures (· = s) (collectCompleted held)
      (OkOr (fun _ t => ∃ u, Lulls s u ∧ t.host = u.host ∧ t.journal = u.journal)
        fun _ t => ¬ Named t.journal) := by
  refine Ensures.after (block_unrefused hnot) ?_
  have hblocked : Lulls s { s.drifted held with signal := (s.drifted held).signal.block } :=
    (Relation.ReflTransGen.single (.drift held s)).tail (.signal _ _)
  refine Ensures.restoringMask ?_
  refine Ensures.bind _ ((reapTerminated_lulls hs held).pre ?_) ?_ fun _ _ h => h
  · rintro _ rfl
    exact hblocked
  · intro _
    refine Ensures.get_bind ?_
    intro u hu
    refine Ensures.set_bind ?_
    rintro _ rfl
    refine Ensures.ofPure ?_
    rintro _ rfl
    exact ⟨_, hu, rfl, rfl⟩

/-- Without children time passes for the host only. -/
theorem drifted_initial (host : σ) (held : Descriptors) :
    ({ host := host } : Supervisor σ).drifted held = { host := (Host.drift held host).2 } :=
  foldl_bury (I := fun s => s = { host := (Host.drift held host).2 })
    (by rintro _ death rfl; rfl) _ _ rfl

/-- At the start there is nothing to collect. -/
theorem collectCompleted_initial {host : σ} {held : Descriptors}
    (hnot : Host.refuses .sigprocmask (Host.drift held host).2 = none) :
    Ensures (· = { host := host }) (collectCompleted held)
      (Gives (.ok []) { host := (Host.drift held host).2 }) := by
  have hblock := block_unrefused (s := { host := host })
    (by rw [drifted_initial]; exact hnot)
  rw [drifted_initial] at hblock
  refine Ensures.after hblock ?_
  refine Ensures.restoringMask ?_
  rintro _ rfl
  exact ⟨rfl, rfl⟩

end Supervisor

open Supervisor (Adds Drifts Lulls)

namespace Shell

variable {σ : Type} [Host σ] {file : OpenFile} {calm : σ → Prop} {s t : Shell σ}

/-- A shell that has just been started. -/
def initial (host : σ) (descriptors : Descriptors) (place : Nat) (home : Option Bytes) :
    Shell σ where
  host := host
  descriptors := descriptors
  place := place
  home := home

/-- The host is left to itself, but for what is taken from an open file. -/
abbrev Idles (file : OpenFile) : σ → σ → Prop :=
  Relation.ReflTransGen fun host host' =>
    (∃ held, host' = (Host.drift held host).2) ∨ ∃ n, host' = Host.take file n host

/-- Nothing has happened to the shell but that children have ended and have been reaped. -/
structure Idled (file : OpenFile) (s t : Shell σ) : Prop where
  host : Idles file s.host t.host
  journal : Adds Event.OfEnd s.toSupervisor t.toSupervisor

theorem Idled.refl (s : Shell σ) : Idled file s s := ⟨.refl, .refl _⟩

theorem Idled.trans {u : Shell σ} (h : Idled file s t) (h' : Idled file t u) : Idled file s u :=
  ⟨Relation.ReflTransGen.trans h.host h'.host, h.journal.trans h'.journal⟩

theorem idles_of_drifts {host host' : σ} (h : Drifts host host') : Idles file host host' :=
  Relation.ReflTransGen.mono (fun _ _ => .inl) _ _ h

/-! ### Reading the one line -/

section Start

variable {host : σ} {d : Descriptors} {place : Nat} {home : Option Bytes}

/-- A shell that has just been started lets time pass. -/
theorem passed_initial :
    (initial host d place home).passed = initial (Host.drift d host).2 d place home := by
  have hdrifted := Supervisor.drifted_initial host d
  change { initial host d place home with
    toSupervisor := ({ host := host } : Supervisor σ).drifted d } = _
  rw [hdrifted]
  rfl

/-- It has nothing to report. -/
theorem greet_initial {prompt : String}
    (hnot : Host.refuses .sigprocmask (Host.drift d host).2 = none) :
    (greet false prompt).run (initial host d place home) =
      (.ok ⟨⟩, initial (Host.drift d host).2 d place home) := by
  have hcollect := Supervisor.collectCompleted_initial hnot
  have hreport : (report (σ := σ)).run (initial host d place home) =
      (.ok [], initial (Host.drift d host).2 d place home) :=
    Gives.run (supervise_gives hcollect)
  rw [greet, run_bind, hreport]
  rfl

/-- **The line is read as a whole.** -/
theorem readInput_initial {line : Bytes} {limit : Nat} (hlimit : limit + 1 < twoTo 64)
    (hnewline : newline ∉ line) (hlength : line.length ≤ limit)
    (hunread : Host.unread file (Host.drift d host).2 = line) :
    (readInput file limit).run (initial host d place home) =
      (.ok (.ok (if line = [] then .endOfInput else .line line)),
        initial (Host.take file line.length (Host.drift d host).2) d place home) := by
  obtain ⟨hresult, htaken⟩ := Feed.nextLine_unbuffered line hlimit
  have hwhole := throughNewline_of_not_mem hnewline
  have hlast : line.getLast? ≠ some newline := by
    intro hlast
    exact hnewline (List.mem_of_getLast? hlast)
  have hpiece : Input.ofPiece limit line = .line line := by
    rw [Input.ofPiece, content_of_no_newline hlast, if_pos hlength]
  rw [hwhole] at hresult htaken
  rw [hpiece] at hresult
  have hpassed := @passed_initial σ _ host d place home
  rw [readInput_run, hpassed]
  simp only [initial, hunread, hresult, htaken]

/-- A shell that has just been started reads its one line, and runs it. -/
theorem readLines_initial {settings : Settings} {line : Bytes} {n : Nat}
    (hinteractive : settings.interactive = none) (hlimit : settings.maxLine + 1 < twoTo 64)
    (hnewline : newline ∉ line) (hlength : line.length ≤ settings.maxLine)
    (hnot : Host.refuses .sigprocmask (Host.drift d host).2 = none)
    (hunread : Host.unread file (Host.drift d (Host.drift d host).2).2 = line) :
    (readLines settings file (n + 1)).run (initial host d place home) =
      (if line = [] then return 0
        else do
          runLine line
          match (← get).exitRequested with
          | some status => return status
          | none => readLines settings file n : ShellM σ Int).run
        (initial (Host.take file line.length (Host.drift d (Host.drift d host).2).2) d place
          home) := by
  have hgreet : (greeting settings).run (initial host d place home) =
      (.ok ⟨⟩, initial (Host.drift d host).2 d place home) := by
    rw [greeting, hinteractive]
    exact greet_initial hnot
  rw [readLines, run_bind, hgreet]
  simp only
  rw [run_bind, readInput_initial hlimit hnewline hlength hunread]
  cases line with
  | nil => rfl
  | cons byte rest => rfl

end Start

/-! ### At the end of the input -/

section Finish

variable (hshared : Shared file calm)
include hshared

theorem leaves_of_drifts {host host' : σ} (h : Supervisor.Drifts host host') (hhost : calm host) :
    Leaves file calm host host' := by
  induction h with
  | refl => exact .refl hhost
  | tail _ hdrift ih =>
      obtain ⟨held, rfl⟩ := hdrift
      exact ih.trans (hshared.drift held ih.calm)

variable (hmask : ∀ host : σ, calm host → Host.refuses .sigprocmask host = none)
include hmask

/-- Once more time passes and children are reaped. -/
theorem greet_idles {prompt : String} (hs : Spent file calm s.host)
    (haccounted : s.toSupervisor.Accounted) :
    Ensures (· = s) (greet false prompt)
      (OkOr (fun _ t => Idled file s t ∧ Spent file calm t.host) fun _ t => ¬ Named t.journal) := by
  have hnot : Host.refuses .sigprocmask (s.toSupervisor.drifted s.descriptors).host = none := by
    rw [Supervisor.drifted_host]
    exact hmask _ (hshared.drift _ hs.calm).calm
  refine Ensures.bind (OkOr (fun _ t => Idled file s t ∧ Spent file calm t.host)
    fun _ t => ¬ Named t.journal) ?_ (fun _ => Ensures.ofPure fun _ h => h) fun _ _ h => h
  refine Ensures.supervise ?_
  rintro s rfl
  refine (Supervisor.collectCompleted_lulls haccounted hnot).post ?_
  rintro (stop | jobs) v hv
  · exact hv
  · obtain ⟨u, hu, hhost, hjournal⟩ := hv
    have hdrifts := hu.untouched.host
    rw [← hhost] at hdrifts
    have hadds : Adds Event.OfEnd s.toSupervisor v := by
      obtain ⟨events, hevents, hends⟩ := hu.adds
      exact ⟨events, hjournal.trans hevents, hends⟩
    exact ⟨⟨idles_of_drifts hdrifts, hadds⟩, (leaves_of_drifts hshared hdrifts hs.calm).spent hs⟩

/-- **Without input the loop is over**, unless a death cannot be decoded. -/
theorem readLines_spent {settings : Settings} (hinteractive : settings.interactive = none)
    (hlimit : settings.maxLine + 1 < twoTo 64) (hs : Spent file calm s.host)
    (haccounted : s.toSupervisor.Accounted) (n : Nat) :
    Ensures (· = s) (readLines settings file (n + 1))
      (OkOr (fun status t => status = 0 ∧ Idled file s t) fun _ t => ¬ Named t.journal) := by
  have hgreet : Ensures (· = s) (greeting settings)
      (OkOr (fun _ t => Idled file s t ∧ Spent file calm t.host) fun _ t => ¬ Named t.journal) := by
    rw [greeting, hinteractive]
    exact greet_idles hshared hmask hs haccounted
  refine Ensures.bind _ hgreet ?_ fun _ _ h => h
  rintro - t ⟨hidled, ht⟩
  have hpassed : Host.unread file t.passed.host = [] :=
    ((passed_leaves hshared ht.calm).spent ht).unread
  have hread : (readInput file settings.maxLine).run t =
      (.ok (.ok .endOfInput), { t.passed with host := Host.take file 0 t.passed.host }) := by
    rw [readInput_run, hpassed, Feed.nextLine_nothing hlimit]
  rw [run_bind, hread]
  refine ⟨rfl, hidled.trans ⟨?_, ?_⟩⟩
  · have hdrift : t.passed.host = (Host.drift t.descriptors t.host).2 :=
      Supervisor.drifted_host t.descriptors
    exact (Relation.ReflTransGen.single (.inl ⟨t.descriptors, hdrift⟩)).tail (.inr ⟨0, rfl⟩)
  · exact Supervisor.drifted_adds t.descriptors fun _ _ => trivial

end Finish

/-! ### Both ways -/

/-- The second shell is one beside the first, but that more children have ended. -/
def Lags (like : σ → σ → Prop) (file : OpenFile) (d e : Descriptors) (s t : Shell σ) : Prop :=
  ∃ u, Beside like d e s u ∧ Idled file u t

/-- Twin hosts without input. -/
abbrev BothSpent (like : σ → σ → Prop) (file : OpenFile) (calm : σ → Prop) (g h : σ) : Prop :=
  like g h ∧ Spent file calm g ∧ Spent file calm h

section Both

variable {like : σ → σ → Prop} {settings : Settings} {d e : Descriptors} (htwins : Twins like)
  (hshared : Shared file calm)
  (hmask : ∀ host : σ, calm host → Host.refuses .sigprocmask host = none) (halike : d.Alike e)
  (hfile : d.file? 0 = some file) (hd : 3 ≤ d.room) (he : 3 ≤ e.room)
  (hinteractive : settings.interactive = none) (hlimit : settings.maxLine + 1 < twoTo 64)

include htwins hshared hmask halike hfile hd he hinteractive hlimit

/-- One shell runs a line and is done, the other runs it and looks for more. -/
theorem runLine_abreast (text : Bytes) (n : Nat) (haccounted : t.toSupervisor.Accounted)
    (h : Beside (BothSpent like file calm) d e s t) :
    let first := (do
      runLine text
      return (← get).exitRequested.getD 0 : ShellM σ Int).run s
    let second := (do
      runLine text
      match (← get).exitRequested with
      | some status => return status
      | none => readLines settings file (n + 1) : ShellM σ Int).run t
    Abreast (fun a s b t => b = a ∧ Lags (BothSpent like file calm) file d e s t)
        (Beside (BothSpent like file calm) d e) first second ∨ ¬ Named second.2.journal := by
  have htogether := runLine_together (htwins.spent hshared) halike hfile hd he text h
  have hproceeds : ProceedsOn (fun _ => True) t ((runLine text).run t).1 ((runLine text).run t).2 :=
    runLine_proceeds text (fun _ _ _ _ => trivial) t rfl
  have hafter := hproceeds.accounted haccounted
  simp only
  rw [run_bind, run_bind]
  generalize (runLine text).run s = o at htogether ⊢
  generalize (runLine text).run t = p at htogether hafter ⊢
  cases htogether with
  | stop h => exact .inl (.stop h)
  | @ok a b s t h =>
      obtain ⟨-, h⟩ := h
      have hexit : t.exitRequested = s.exitRequested := by
        cases h with
        | intro => rfl
      simp only
      rw [run_get_bind, run_get_bind, hexit]
      cases s.exitRequested with
      | some status => exact .inl (.ok ⟨rfl, t, h, .refl t⟩)
      | none =>
          -- the other shell finds the end of its input, and idles until then
          have hspent := readLines_spent hshared hmask hinteractive hlimit h.same.host.2.2 hafter n
            t rfl
          simp only
          generalize (readLines settings file (n + 1)).run t = q at hspent ⊢
          obtain ⟨_ | status, u⟩ := q
          · exact .inr hspent
          · obtain ⟨rfl, hidled⟩ := hspent
            exact .inl (.ok ⟨rfl, t, h, hidled⟩)

/-- **The one line does the same as an argument and as the input**, unless a death cannot be
decoded. -/
theorem serve_abreast {line : String} {host input : σ} {place : Nat} {home : Option Bytes}
    (hcommand : settings.command = none) (hnewline : newline ∉ utf8 line)
    (hlength : (utf8 line).length ≤ settings.maxLine) (hhost : Spent file calm host)
    (hcalm : calm input)
    (hinput : ∀ rest, Supervisor.Drifts input rest →
      Host.unread file rest = utf8 line ∧ like host (Host.take file (utf8 line).length rest)) :
    Abreast (fun a s b t => b = a ∧ Lags (BothSpent like file calm) file d e s t)
        (Beside (BothSpent like file calm) d e)
        ((serve { settings with command := some line }).run (initial host d place home))
        ((serve settings).run (initial input e place home)) ∨
      ¬ Named ((serve settings).run (initial input e place home)).2.journal := by
  have hfile' : e.file? 0 = some file := by rw [halike.standard 0 (by decide), hfile]
  -- the second shell reads its line after time has passed twice
  have hfirst : Supervisor.Drifts input (Host.drift e input).2 := .single ⟨e, rfl⟩
  obtain ⟨hunread, hlike⟩ := hinput _ (hfirst.tail ⟨e, rfl⟩)
  have hcalm' := (hshared.drift e hcalm).calm
  have hspent := hshared.spent_take (hshared.drift e hcalm').calm
  rw [hunread] at hspent
  have hread : (serve settings).run (initial input e place home) = _ :=
    (CommandLine.serve_run hcommand hfile').trans
      (readLines_initial hinteractive hlimit hnewline hlength (hmask _ hcalm') hunread)
  have hstart : Beside (BothSpent like file calm) d e (initial host d place home)
      (initial (Host.take file (utf8 line).length (Host.drift e (Host.drift e input).2).2) e place
        home) :=
    .intro (s := initial host d place home) rfl ⟨hlike, hhost, hspent⟩
  rw [hread]
  unfold serve
  simp only
  by_cases hline : utf8 line = []
  · -- without a byte there is no line to read, and an empty one to run
    rw [if_pos hline, hline]
    exact .inl (.ok ⟨rfl, _, hline ▸ hstart, .refl _⟩)
  · rw [if_neg hline]
    obtain ⟨n, hn⟩ :
        ∃ n, (Host.unread file (initial input e place home).host).length = n + 1 := by
      rw [(hinput (initial input e place home).host .refl).1]
      exact Nat.exists_eq_succ_of_ne_zero fun hzero => hline (List.length_eq_zero_iff.1 hzero)
    rw [hn]
    exact runLine_abreast htwins hshared hmask halike hfile hd he hinteractive hlimit
      (utf8 line) n (Supervisor.accounted_initial _) hstart

end Both

end Shell

/-! ### With a record -/

namespace Recorded

variable {σ : Type} [Host σ] {g h : Recorded σ}

/-- As long as nothing is asked of a host its record stays as it is. -/
theorem drifts (hdrifts : Supervisor.Drifts g h) :
    Supervisor.Drifts g.host h.host ∧ h.effects = g.effects := by
  induction hdrifts with
  | refl => exact ⟨.refl, rfl⟩
  | tail _ hdrift ih =>
      obtain ⟨held, rfl⟩ := hdrift
      exact ⟨ih.1.tail ⟨held, rfl⟩, ih.2⟩

theorem idles {file : OpenFile} (hidles : Shell.Idles file g h) : h.effects = g.effects := by
  induction hidles with
  | refl => rfl
  | tail _ hidle ih => rcases hidle with ⟨held, rfl⟩ | ⟨n, rfl⟩ <;> exact ih

end Recorded

/-- A host whose children know nothing of descriptors is its own twin. -/
theorem Hungry.twins : Twins (Eq : Hungry → Hungry → Prop) where
  refuses _ _ := rfl
  newPipe h := ⟨rfl, h⟩
  nextPid _ := rfl
  start pid _ _ h _ := by rw [h]; rfl
  write _ _ h := h
  enter _ _ _ := rfl
  pathOf _ _ := rfl
  kill _ _ _ := .error rfl
  drift h _ := ⟨rfl, h⟩
  await := by
    rintro ⟨input, appetite, living⟩ _ d e rfl -
    cases living with
    | nil => exact .error ⟨rfl, rfl⟩
    | cons pid rest => exact .ok ⟨rfl, rfl⟩

theorem Hungry.drifts {host host' : Hungry} (h : Supervisor.Drifts host host') : host' = host := by
  induction h with
  | refl => rfl
  | tail _ hdrift ih =>
      obtain ⟨held, rfl⟩ := hdrift
      exact ih

/-! ### Whole runs -/

namespace CommandLine

open Shell (Beside Lags BothSpent)

variable {σ : Type} [Host σ] {like : σ → σ → Prop} {file : OpenFile} {calm : σ → Prop}
  {d e : Descriptors} {settings settings' : Settings} {s t : Shell σ}

theorem write_beside (htwins : Twins like) (halike : d.Alike e) (text : String)
    (h : Beside like d e s t) : Beside like d e (write 2 text s) (write 2 text t) := by
  have hsay := Shell.say_together htwins halike (by decide : 2 < 3) (utf8 text) h
  unfold write
  generalize (Shell.say 2 (utf8 text)).run s = o at hsay ⊢
  generalize (Shell.say 2 (utf8 text)).run t = p at hsay ⊢
  cases hsay with
  | ok h => exact h.2
  | stop h => exact h

/-- **Both runs end alike.** -/
theorem runWith_abreast (htwins : Twins like) (halike : d.Alike e)
    (h : Abreast (fun a s b t => b = a ∧ Lags like file d e s t) (Beside like d e)
      ((Shell.serve settings).run s) ((Shell.serve settings').run t)) :
    (runWith settings' t).1 = (runWith settings s).1 ∧
      Lags like file d e (runWith settings s).2 (runWith settings' t).2 := by
  unfold runWith
  generalize (Shell.serve settings).run s = o at h ⊢
  generalize (Shell.serve settings').run t = p at h ⊢
  cases h with
  | @ok a b s t h =>
      obtain ⟨rfl, h⟩ := h
      exact ⟨rfl, h⟩
  | @stop stop s t h =>
      rcases stop with failure | _ | (signal | _)
      · exact ⟨rfl, _, write_beside htwins halike _ h, .refl _⟩
      · exact ⟨rfl, t, h, .refl t⟩
      · exact ⟨rfl, t, h, .refl t⟩
      · exact ⟨rfl, t, h, .refl t⟩

/-- The last words of a shell are none of its journal. -/
theorem runWith_journal :
    (runWith settings s).2.journal = ((Shell.serve settings).run s).2.journal := by
  have hwrite : ∀ (s : Shell σ) text, (write 2 text s).journal = s.journal := by
    intro s text
    have htold := (Shell.say_tells 2 (utf8 text) s rfl).2
    exact congrArg (fun t => t.journal) htold
  unfold runWith
  rcases (Shell.serve settings).run s with ⟨(failure | _ | (signal | _)) | status, t⟩
  · exact hwrite t _
  · rfl
  · rfl
  · rfl
  · rfl

/-- The environment asks neither for a line nor for reports. -/
theorem ofEnvironment_eq_ok {env : String → Option String}
    (h : Settings.ofEnvironment env = .ok settings) :
    settings.command = none ∧ settings.interactive = none := by
  unfold Settings.ofEnvironment at h
  cases hvalue : env Settings.maxLineVariable with
  | none =>
      rw [hvalue] at h
      rw [← Except.ok.inj h]
      cases env Settings.promptVariable <;> exact ⟨rfl, rfl⟩
  | some value =>
      rw [hvalue] at h
      simp only at h
      cases hnumber : (count? (utf8 value)).filter (0 < ·) with
      | none =>
          rw [hnumber] at h
          cases h
      | some n =>
          rw [hnumber] at h
          rw [← Except.ok.inj h]
          cases env Settings.promptVariable <;> exact ⟨rfl, rfl⟩

omit [Host σ] in
/-- A shell that reads lines has one descriptor more. -/
theorem openReader_eq_some (hcommand : settings.command = none)
    (hfile : s.descriptors.file? 0 = some file) (hroom : s.descriptors.room ≠ 0) :
    ∃ e, openReader settings s = some { s with descriptors := e } ∧ s.descriptors.Alike e ∧
      e.room = s.descriptors.room - 1 := by
  obtain ⟨e, hreserve, halike, he⟩ :=
    Descriptors.exists_reserve hfile hroom (Nat.le_refl readerStart)
  refine ⟨e, ?_, halike, he⟩
  unfold openReader
  rw [hcommand, hfile]
  simp only
  rw [hreserve]
  rfl

/-- Hosts that are twins once the line is taken from one of them stay so with a record: nothing has
been recorded of either, and nothing is left to take. -/
theorem recorded_taken {host input : σ} {line : Bytes} {rest : Recorded σ}
    (hshared : Shared file calm) (hhost : Spent file calm host) (hcalm : calm input)
    (hinput : ∀ rest, Supervisor.Drifts input rest →
      Host.unread file rest = line ∧ like host (Host.take file line.length rest))
    (hrest : Supervisor.Drifts { host := input } rest) :
    Host.unread file rest = line ∧ Recorded.Like (BothSpent like file calm) { host := host }
      (Host.take file line.length rest) := by
  obtain ⟨hdrifts, heffects⟩ := Recorded.drifts hrest
  obtain ⟨hunread, hlike⟩ := hinput rest.host hdrifts
  have hspent := hshared.spent_take (Shell.leaves_of_drifts hshared hdrifts hcalm).calm
  rw [hunread] at hspent
  refine ⟨hunread, ⟨hlike, hhost, hspent⟩, ?_⟩
  change List.Forall₂ _ [] rest.effects
  rw [heffects]
  exact .nil

/-- How a run ends, and with which shell, whose one line has an outcome: with eight bits of the
status that has been requested, or with 0 without one; with 1 and its last words if a call has
failed; or it is lost.  It does not end at an assertion. -/
def EndsWith (ended : RunEnd × Shell σ) : Except Stop Unit × Shell σ → Prop
  | (.ok _, t) => ended = (.exited (t.exitRequested.getD 0 % 256).toNat, t)
  | (.error (.failed e), t) => ended = (.exited 1, write 2 (fatalText (fatalReason e)) t)
  | (.error (.lost (.killed signal)), t) => ended = (.killed signal, t)
  | (.error (.lost .stuck), t) => ended = (.stuck, t)
  | (.error .assertionFailed, _) => False

section Runs

variable {env : String → Option String} {line : String}
  (hsettings : Settings.ofEnvironment env = .ok settings)
include hsettings

theorem run_argument_eq (s : Shell σ) :
    run ["-c", line] env s = runWith { settings with command := some line } s := by
  have hload : Settings.load ["-c", line] env =
      .ok (.run { settings with command := some line }) := by
    unfold Settings.load
    rw [hsettings]
    rfl
  unfold run
  rw [hload]
  rfl

/-- How the run of a line that is an argument ends. -/
theorem run_argument_ends (s : Shell σ) (hs : s.toSupervisor.Accounted) :
    EndsWith (run ["-c", line] env s) ((Shell.runLine (utf8 line)).run s) := by
  have hproceeds : Shell.ProceedsOn (fun _ => True) s ((Shell.runLine (utf8 line)).run s).1
      ((Shell.runLine (utf8 line)).run s).2 :=
    Shell.runLine_proceeds (utf8 line) (fun _ _ _ _ => trivial) s rfl
  have hafter := hproceeds.accounted hs
  have hserve : (Shell.serve { settings with command := some line }).run s =
      (do
        Shell.runLine (utf8 line)
        return (← get).exitRequested.getD 0 : ShellM σ Int).run s := rfl
  rw [run_argument_eq hsettings]
  unfold runWith
  rw [hserve, run_bind]
  generalize (Shell.runLine (utf8 line)).run s = o at hafter ⊢
  obtain ⟨(failure | _ | (signal | _)) | _, t⟩ := o
  · rfl
  · exact hafter rfl
  · rfl
  · rfl
  · rfl

variable {host input : σ} {place : Nat} {home : Option Bytes}

/-- **Both runs of a line end alike**, unless a death cannot be decoded. -/
theorem run_abreast (htwins : Twins like) (hshared : Shared file calm)
    (hmask : ∀ host : σ, calm host → Host.refuses .sigprocmask host = none)
    (hlimit : settings.maxLine + 1 < twoTo 64) (hnewline : newline ∉ utf8 line)
    (hlength : (utf8 line).length ≤ settings.maxLine) (hfile : d.file? 0 = some file)
    (hroom : 4 ≤ d.room) (hhost : Spent file calm host) (hcalm : calm input)
    (hinput : ∀ rest, Supervisor.Drifts input rest →
      Host.unread file rest = utf8 line ∧ like host (Host.take file (utf8 line).length rest))
    (hnamed : Named (run [] env (Shell.initial input d place home)).2.journal) :
    let told := run ["-c", line] env (Shell.initial host d place home)
    let read := run [] env (Shell.initial input d place home)
    read.1 = told.1 ∧ ∃ e, Lags (BothSpent like file calm) file d e told.2 read.2 := by
  obtain ⟨hcommand, hinteractive⟩ := ofEnvironment_eq_ok hsettings
  -- the shell that reads has one descriptor more, which makes no difference but for the room
  obtain ⟨e, hreader, halike, he⟩ :=
    openReader_eq_some (s := Shell.initial input d place home) hcommand hfile
      (by change d.room ≠ 0; omega)
  have hread : run [] env (Shell.initial input d place home) =
      runWith settings (Shell.initial input e place home) := by
    have hload : Settings.load [] env = .ok (.run settings) := by
      unfold Settings.load
      rw [hsettings]
      rfl
    unfold run
    rw [hload]
    simp only
    rw [hreader]
    rfl
  have he' : 3 ≤ e.room := by
    rw [he]
    change 3 ≤ d.room - 1
    omega
  simp only
  rw [hread, runWith_journal] at hnamed
  rw [hread, run_argument_eq hsettings]
  rcases Shell.serve_abreast htwins hshared hmask halike hfile (by omega) he' hinteractive hlimit
      hcommand hnewline hlength hhost hcalm hinput with habreast | hnot
  · obtain ⟨hend, hlags⟩ := runWith_abreast (htwins.spent hshared) halike habreast
    exact ⟨hend, e, hlags⟩
  · exact absurd hnamed hnot

/-- **A line does the same whether it is an argument or the input.**  Let a line be at most as long
as lines may be, and let it hold no newline.  Let one shell be started with the line as an argument
and an empty input, and another one with the line as its input, on hosts that cannot be told apart
once the line is taken from the input.  No child adds anything to the input or minds the numbers of
descriptors, a signal can be blocked, there is room for four more descriptors, and every child ends
by an exit or by a signal with a name.  Then

* both runs end alike: with eight bits of the status that is requested, or 0 without one; with 1
  when a call fails in the shell; or the shell is lost;
* the same children are started and the same texts are written and the same signals are sent, in the
  same order;
* whenever a child is started nothing is left in the input;
* the same has happened to both shells, but that in the second run children may have ended since. -/
theorem run_argument_as_input (htwins : Twins like) (hshared : Shared file calm)
    (hmask : ∀ host : σ, calm host → Host.refuses .sigprocmask host = none)
    (hlimit : settings.maxLine + 1 < twoTo 64) (hnewline : newline ∉ utf8 line)
    (hlength : (utf8 line).length ≤ settings.maxLine) (hfile : d.file? 0 = some file)
    (hroom : 4 ≤ d.room) (hhost : calm host) (hempty : Host.unread file host = [])
    (hcalm : calm input)
    (hinput : ∀ rest, Supervisor.Drifts input rest →
      Host.unread file rest = utf8 line ∧ like host (Host.take file (utf8 line).length rest))
    (hnamed : Named
      (run [] env (Shell.initial ({ host := input } : Recorded σ) d place home)).2.journal) :
    let start (host : σ) : Shell (Recorded σ) := Shell.initial { host := host } d place home
    let told := run ["-c", line] env (start host)
    let read := run [] env (start input)
    read.1 = told.1 ∧
      EndsWith told ((Shell.runLine (utf8 line)).run (start host)) ∧
      List.Forall₂ (Effect.Alike like) told.2.host.effects read.2.host.effects ∧
      (∀ host pid a, .started host pid a ∈ told.2.host.effects ++ read.2.host.effects →
        Host.unread file host = []) ∧
      Supervisor.Adds Event.OfEnd told.2.toSupervisor read.2.toSupervisor := by
  have hrecorded : Twins (Recorded.Like (BothSpent like file calm)) :=
    (htwins.spent hshared).recorded
  have hstart : ∀ rest : Recorded σ, Supervisor.Drifts { host := input } rest →
      Host.unread file rest = utf8 line ∧ Recorded.Like (BothSpent like file calm)
        { host := host } (Host.take file (utf8 line).length rest) :=
    fun _ => recorded_taken hshared ⟨hhost, hempty⟩ hcalm hinput
  obtain ⟨hend, e, u, hbeside, hidled⟩ := run_abreast hsettings hrecorded hshared.recorded
    (fun rest => hmask rest.host) hlimit hnewline hlength hfile hroom ⟨hhost, hempty⟩ hcalm hstart
    hnamed
  have heffects := Recorded.idles hidled.host
  have hlike := hbeside.same.host.1.effects
  rw [← heffects] at hlike
  refine ⟨hend, run_argument_ends hsettings _ (Supervisor.accounted_initial _), ?_, ?_, ?_⟩
  · exact hlike.imp fun effect effect' h => h.mono fun _ _ hboth => hboth.1
  · intro host pid a hmem
    exact Effect.Alike.of_started hlike (fun _ _ hboth => ⟨hboth.2.1.unread, hboth.2.2.unread⟩) hmem
  · obtain ⟨events, hevents, hends⟩ := hidled.journal
    have hsame : u.journal = (run ["-c", line] env
        (Shell.initial ({ host := host } : Recorded σ) d place home)).2.journal := by
      cases hbeside with
      | intro => rfl
    exact ⟨events, hsame ▸ hevents, hends⟩

end Runs

/-- A pipeline of two commands, whose children would read five bytes each, and an exit. -/
theorem run_argument_as_input_pair :
    let start (host : Hungry) : Shell (Recorded Hungry) :=
      Shell.initial { host := host } (Hungry.shell [] 0).descriptors 0 none
    let told := run ["-c", "a | b; exit 259"] (fun _ => none) (start { input := [], appetite := 5 })
    let read := run [] (fun _ => none)
      (start { input := utf8 "a | b; exit 259", appetite := 5 })
    told.1 = .exited 3 ∧ told.2.host.effects.length = 2 ∧ read.1 = .exited 3 ∧
      List.Forall₂ (Effect.Alike Eq) told.2.host.effects read.2.host.effects := by
  have hinput : ∀ rest : Hungry,
      Supervisor.Drifts { input := utf8 "a | b; exit 259", appetite := 5 } rest →
        Host.unread (.opened 0) rest = utf8 "a | b; exit 259" ∧
          ({ input := [], appetite := 5 } : Hungry) =
            Host.take (.opened 0) (utf8 "a | b; exit 259").length rest := by
    intro rest hrest
    rw [Hungry.drifts hrest]
    refine ⟨rfl, ?_⟩
    change _ = ({ input := (utf8 "a | b; exit 259").drop _, appetite := 5 } : Hungry)
    rw [List.drop_length]
  have hboth := @run_argument_as_input Hungry _ Eq (.opened 0) (fun _ => True)
    (Hungry.shell [] 0).descriptors {} (fun _ => none) "a | b; exit 259" rfl
    { input := [], appetite := 5 }
    { input := utf8 "a | b; exit 259", appetite := 5 } 0 none Hungry.twins
    (Hungry.shared (.opened 0)) (fun _ _ => rfl) (by decide) (by decide +kernel)
    (by decide +kernel) rfl (by decide) trivial rfl trivial hinput
  have hnamed : Named (run [] (fun _ => none) (Shell.initial
      ({ host := { input := utf8 "a | b; exit 259", appetite := 5 } } : Recorded Hungry)
        (Hungry.shell [] 0).descriptors 0 none)).2.journal := by decide +kernel
  obtain ⟨hend, -, heffects, -⟩ := hboth hnamed
  refine ⟨?_, ?_, hend.trans ?_, heffects⟩
  · decide +kernel
  · decide +kernel
  · decide +kernel

/-- **On a machine the two are told apart** by a line whose child writes to the input, which only a
shell that reads goes on with; by a line whose child opens the descriptor of the reader; and by a
line with one command if there is room for one descriptor only, which the reader takes.  Every child
ends by an exit. -/
theorem run_argument_unlike_input :
    let start (capacity : Nat) (input : Bytes) : Shell Machine :=
      let s := Installation.shell [] [] input
      { s with descriptors := { s.descriptors with capacity := capacity } }
    let told capacity line := run ["-c", line] (fun _ => none) (start capacity [])
    let read capacity line := run [] (fun _ => none) (start capacity (utf8 line))
    let fits capacity line := newline ∉ utf8 line ∧ (utf8 line).length ≤ 2048 ∧
      Named (told capacity line).2.journal ∧ Named (read capacity line).2.journal
    (¬ ∀ line, fits 1024 line → (read 1024 line).1 = (told 1024 line).1) ∧
      (¬ ∀ line, fits 1024 line →
        (read 1024 line).2.host.diagnostics = (told 1024 line).2.host.diagnostics) ∧
      ¬ ∀ line, fits 4 line → (read 4 line).1 = (told 4 line).1 := by
  refine ⟨fun h => ?_, fun h => ?_, fun h => ?_⟩
  · have hsame := h "echo exit 3 > /dev/stdin" (by decide +kernel)
    revert hsame
    decide +kernel
  · have hsame := h "echo a < /dev/fd/3" (by decide +kernel)
    revert hsame
    decide +kernel
  · have hsame := h "echo a" (by decide +kernel)
    revert hsame
    decide +kernel

end CommandLine

end JobShell
