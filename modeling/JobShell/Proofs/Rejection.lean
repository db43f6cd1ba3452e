/-
**A line that cannot be run does nothing.**

A line is read as a whole before any of it runs.  One fault makes it a line that cannot be run,
wherever the fault is: in the first pipeline or after any number of others that are well-formed, in
the tokens or only in a pipeline that lacks a command.  All that such a line does is one message.

A line that can be run never gives that message: whatever the system did with it, the run would be
the same.  The shell's own texts are the complaints of builtins, which begin with another word, and
the path of the working directory, which begins with a slash.

Main definitions:

* `JobShell.Rejected` — lines that cannot be run;
* `JobShell.Host.rewired` — a system that does something else with what is written to it.

Main results:

* `JobShell.rejected_append_iff` — a line is rejected exactly if a part of it is;
* `JobShell.Shell.runLine_rejected` — what a rejected line does;
* `JobShell.Shell.runLine_rewired` — a line that is not rejected does not give the message;
* `JobShell.Shell.runLine_atomic` — **a line that cannot be run does nothing but say so, and only
  such a line says it.**
-/

import JobShell.Machine.Schedule
import JobShell.Proofs.Sequencing

set_option autoImplicit false

namespace JobShell

/-- A text that cannot be run as a line: it cannot be read, or a pipeline in it lacks a command. -/
def Rejected (t : Bytes) : Prop := ∃ e, parse t >>= Line.validate = .error e

instance (t : Bytes) : Decidable (Rejected t) :=
  decidable_of_iff ((parse t >>= Line.validate).isOk = false) <| by
    unfold Rejected
    cases parse t >>= Line.validate <;> simp [Except.isOk, Except.toBool]

/-! ### Faults anywhere in a line -/

namespace Line

/-- A line that stands before a separator: its last pipeline runs in the background if the separator
says so. -/
def ended : Separator → Line → Line
  | .background, [d] => [{ d with background := true }]
  | .background, d :: d' :: line => d :: ended .background (d' :: line)
  | _, line => line

theorem ended_slots (s : Separator) (line : Line) :
    (line.ended s).map (·.slots) = line.map (·.slots) := by
  fun_induction ended s line with
  | case1 d => rfl
  | case2 d d' line ih => exact congrArg (d.slots :: ·) ih
  | case3 => rfl

/-- What is put in front of a line is put in front of the line before a separator. -/
theorem attach_ended (slot : Option Command) (s s' : Separator) {line : Line} (h : line ≠ [])
    (line' : Line) :
    attach slot s (ended s' line ++ line') = ended s' (attach slot s line) ++ line' := by
  obtain ⟨d, line, rfl⟩ := List.exists_cons_of_ne_nil h
  cases s <;> cases s' <;> cases line <;> rfl

/-- Each pipeline of a line is blank, or it has a command in every slot. -/
def Complete (line : Line) : Prop :=
  ∀ slots ∈ line.map (·.slots), slots = [none] ∨ none ∉ slots

theorem complete_append {line line' : Line} :
    Complete (line ++ line') ↔ Complete line ∧ Complete line' := by
  simp only [Complete, List.map_append, List.mem_append, or_imp, forall_and]

theorem complete_ended {s : Separator} {line : Line} : Complete (line.ended s) ↔ Complete line := by
  rw [Complete, ended_slots, Complete]

/-- A line can be run exactly if it is complete. -/
theorem validate_isOk_iff {line : Line} : (∃ ps, validate line = .ok ps) ↔ line.Complete := by
  have hcommands : ∀ slots : List (Option Command),
      (∃ commands, commandsOf slots = .ok commands) ↔ none ∉ slots := by
    intro slots
    fun_induction commandsOf slots with
    | case1 => simp
    | case2 slots => simp
    | case3 c slots ih =>
        rw [List.mem_cons, not_or, ← ih]
        cases commandsOf slots <;> simp [bind, Except.bind, pure, Except.pure]
  induction line with
  | nil => simp [validate, Complete]
  | cons d line ih =>
      have hcons : Complete (d :: line) ↔ (d.slots = [none] ∨ none ∉ d.slots) ∧ Complete line :=
        List.forall_mem_cons
      refine Iff.trans ?_ (hcons.trans (and_congr (or_congr Iff.rfl (hcommands _).symm) ih.symm)).symm
      rw [validate]
      by_cases hblank : d.slots = [none]
      · simp [Draft.isBlank, hblank]
      · cases hslots : commandsOf d.slots <;> cases validate line <;>
          simp [Draft.isBlank, Draft.runnable, hblank, hslots, bind, Except.bind, pure, Except.pure]

end Line

/-- **The parser reads what stands before the end of a pipeline, then what stands after it, and puts
the two together.** -/
theorem parseTokens_append {s : Separator} (hs : s ≠ .pipe) (first rest : List Token) :
    parseTokens (first ++ .separator s :: rest) =
      (parseTokens first).bind fun line => (parseTokens rest).map fun line' =>
        line.ended s ++ line' := by
  refine parseTokens_join ?_ ?_ first rest
  · intro slot line
    cases s with
    | pipe => exact absurd rfl hs
    | sequence => rfl
    | background => rfl
  · exact fun slot s' line line' hline => Line.attach_ended slot s' s hline line'

/-- What is not rejected is a complete line. -/
theorem not_rejected_iff {t : Bytes} :
    ¬ Rejected t ↔ ∃ line, parse t = .ok line ∧ line.Complete := by
  unfold Rejected
  cases parse t with
  | error e => simp [bind, Except.bind]
  | ok line =>
      have hvalidate := @Line.validate_isOk_iff line
      cases hline : line.validate <;> simp_all [bind, Except.bind]

/-- **A line is rejected exactly if what stands before the end of a pipeline is, or what stands after
it.** -/
theorem rejected_append_iff {s : Separator} {mark : UInt8} (hmark : s.Ends mark) {t u : Bytes} :
    Rejected (t ++ mark :: u) ↔ Rejected t ∨ Rejected u := by
  have hs : s ≠ .pipe := by cases hmark <;> decide
  rw [← not_iff_not, not_or, not_rejected_iff, not_rejected_iff, not_rejected_iff, parse,
    scan_append_separator hmark, parseTokens_append hs]
  unfold parse
  cases parseTokens (scan t) <;> cases parseTokens (scan u) <;>
    simp [Except.bind, Except.map, Line.complete_append, Line.complete_ended]

/-! ### What is written besides the message -/

/-- The same system, but for what comes of writing. -/
abbrev Host.rewired {σ : Type} [Host σ] (write : OpenFile → Bytes → σ → σ) : Host σ :=
  { ‹Host σ› with write := write }

/-- The bytes of joined texts. -/
theorem utf8_append (text text' : String) : utf8 (text ++ text') = utf8 text ++ utf8 text' := by
  simp [utf8]

/-- The path of a directory begins with a slash. -/
def Host.Absolute (σ : Type) [Host σ] : Prop :=
  ∀ place (host : σ) path, Host.pathOf place host = .ok path → path.head? = some slash

section Rewired

variable {σ : Type} [Host σ] {write : OpenFile → Bytes → σ → σ}

/-! ### Children and pipes -/

theorem Supervisor.reapAll_rewired (held : Descriptors) (n : Nat) :
    @reapAll σ (Host.rewired write) held n = reapAll held n := by
  induction n with
  | zero => rfl
  | succ n ih =>
      unfold reapAll
      rw [ih]
      rfl

theorem Supervisor.waitRounds_rewired (held : Descriptors) (n : Nat) :
    @waitRounds σ (Host.rewired write) held n = waitRounds held n := by
  induction n with
  | zero => rfl
  | succ n ih =>
      unfold waitRounds
      rw [ih]
      rfl

namespace Shell

theorem spawnStages_rewired (jobClass : JobClass) (input : Nat) (commands : List Command) :
    @spawnStages σ (Host.rewired write) jobClass input commands =
      spawnStages jobClass input commands := by
  induction commands generalizing input with
  | nil => rfl
  | cons command rest ih =>
      cases rest with
      | nil => rfl
      | cons next rest =>
          simp only [spawnStages, ih]
          rfl

/-- What children run is not written by the shell. -/
theorem runForked_rewired (p : Pipeline) :
    @runForked σ (Host.rewired write) p = runForked p := by
  unfold runForked Supervisor.reapIfNotified Supervisor.reapTerminated Supervisor.waitForeground
  simp only [spawnStages_rewired, Supervisor.reapAll_rewired, Supervisor.waitRounds_rewired]
  rfl

/-! ### Builtins -/

/-- Writing does what it does on the host, but for the message. -/
def Agrees (write : OpenFile → Bytes → σ → σ) : Prop :=
  ∀ file text, text ≠ syntaxError → write file text = Host.write file text

omit [Host σ] in
/-- A text that begins otherwise is not the message. -/
theorem ne_syntaxError {text : Bytes} (h : text.head? ≠ some 83) : text ≠ syntaxError := by
  rintro rfl
  exact h (by decide +kernel)

theorem say_rewired (hwrite : Agrees write) (fd : Nat) {text : Bytes} (htext : text ≠ syntaxError) :
    @say σ (Host.rewired write) fd text = say fd text := by
  have hsame : ∀ file, @Host.write σ (Host.rewired write) file text = Host.write file text :=
    fun file => hwrite file text htext
  simp only [say, hsame]

theorem callBuiltin_rewired (hwrite : Agrees write) (hpaths : Host.Absolute σ) (b : Builtin)
    (arguments : List Bytes) :
    @callBuiltin σ (Host.rewired write) b arguments = callBuiltin b arguments := by
  cases b with
  | exit | cd | kill => rfl
  | pwd =>
      change @printDirectory σ (Host.rewired write) arguments = printDirectory arguments
      unfold printDirectory
      refine ite_congr rfl (fun _ => rfl) fun _ => ?_
      refine congrArg (get >>= ·) (funext fun s => ?_)
      have hsame : @Host.pathOf σ (Host.rewired write) s.place s.host =
          Host.pathOf s.place s.host := rfl
      rw [hsame]
      cases hpath : Host.pathOf s.place s.host with
      | error errno => rfl
      | ok path =>
          have hnot : path ++ [newline] ≠ syntaxError := by
            refine ne_syntaxError ?_
            rw [List.head?_append, hpaths _ _ _ hpath]
            decide
          simp only [say_rewired hwrite 1 hnot]

/-- A builtin's complaint is not the message. -/
theorem runBuiltin_rewired (hwrite : Agrees write) (hpaths : Host.Absolute σ) (b : Builtin)
    (command : Command) :
    @runBuiltin σ (Host.rewired write) b command = runBuiltin b command := by
  have hcomplaint : ∀ reason,
      utf8 ("Builtin " ++ Utf8.decodeLossy command.name ++ " error: " ++ reason ++ "\n") ≠
        syntaxError := by
    intro reason
    refine ne_syntaxError ?_
    have hhead : (utf8 "Builtin ").head? = some 66 := by decide +kernel
    simp [String.append_assoc, utf8_append, List.head?_append, hhead]
  unfold runBuiltin
  rw [callBuiltin_rewired hwrite hpaths]
  refine congrArg (_ >>= ·) (funext fun _ => congrArg (_ >>= ·) (funext fun result => ?_))
  cases result with
  | ok _ => rfl
  | error e => exact say_rewired hwrite 2 (hcomplaint e.message)

/-! ### Lines -/

theorem execute_rewired (hwrite : Agrees write) (hpaths : Host.Absolute σ) (ps : List Pipeline) :
    @execute σ (Host.rewired write) ps = execute ps := by
  have hpipeline : ∀ p, @runPipeline σ (Host.rewired write) p = runPipeline p := by
    intro p
    unfold runPipeline
    cases p.builtin? with
    | some found => exact runBuiltin_rewired hwrite hpaths found.1 found.2
    | none => exact runForked_rewired p
  induction ps with
  | nil => rfl
  | cons p ps ih =>
      unfold execute
      rw [hpipeline, ih]

/-- **A line that is not rejected does not give the message**: whatever came of giving it, the run
would be the same. -/
theorem runLine_rewired (hwrite : Agrees write) (hpaths : Host.Absolute σ) {t : Bytes}
    (ht : ¬ Rejected t) : @runLine σ (Host.rewired write) t = runLine t := by
  unfold runLine
  cases hline : parse t >>= Line.validate with
  | ok ps => exact execute_rewired hwrite hpaths ps
  | error e => exact absurd ⟨e, hline⟩ ht

/-- **All that a rejected line does is one message** on the standard error, if that is open. -/
theorem runLine_rejected {t : Bytes} (ht : Rejected t) (s : Shell σ) :
    (runLine t).run s =
      (.ok (),
        match s.descriptors.file? 2 with
        | some file => { s with host := Host.write file (utf8 "Syntax error.\n") s.host }
        | none => s) := by
  obtain ⟨e, he⟩ := ht
  have hsay : (runLine t : ShellM σ Unit) = say 2 syntaxError := by rw [runLine, he]
  rw [hsay]
  rfl

/-- **A line that cannot be run does nothing but say so, and only such a line says it.**

A text is rejected if it cannot be read as a line, or if a pipeline in it lacks a command.  On every
system and in every state of the shell, running it succeeds and is one write of the message to the
standard error: no child is started or reaped, the working directory, the requested exit status,
the job table, the flag, the descriptors and the journal are the same, and the system is asked for
nothing else, so that no file is made, emptied or opened and nothing is read.  It is rejected
wherever the fault is: whatever pipelines stand before or after it, well-formed or not, with `;` or
`&` between them.

A text that is not rejected does not give the message.  If writing did what it does for all other
texts, but anything else for this one, the outcome would be the same, that for the system included.
This is where it matters that the paths of directories begin with a slash, since the shell writes
them. -/
theorem runLine_atomic (hpaths : Host.Absolute σ) (t : Bytes) :
    (Rejected t →
      (∀ s : Shell σ, (runLine t).run s =
        (.ok (),
          match s.descriptors.file? 2 with
          | some file => { s with host := Host.write file (utf8 "Syntax error.\n") s.host }
          | none => s)) ∧
      ∀ u mark, mark = semicolon ∨ mark = ampersand →
        Rejected (u ++ mark :: t) ∧ Rejected (t ++ mark :: u)) ∧
    (¬ Rejected t → ∀ write : OpenFile → Bytes → σ → σ,
      (∀ file text, text ≠ utf8 "Syntax error.\n" → write file text = Host.write file text) →
        @runLine σ (Host.rewired write) t = runLine t) := by
  refine ⟨fun ht => ⟨fun s => ?_, fun u mark hmark => ?_⟩, fun ht write hwrite => ?_⟩
  · exact runLine_rejected ht s
  · obtain ⟨s, hs⟩ : ∃ s : Separator, s.Ends mark := by
      rcases hmark with rfl | rfl
      · exact ⟨_, .sequence⟩
      · exact ⟨_, .background⟩
    exact ⟨(rejected_append_iff hs).2 (.inr ht), (rejected_append_iff hs).2 (.inl ht)⟩
  · exact runLine_rewired hwrite hpaths ht

end Shell

end Rewired

/-! ### On the machine -/

/-- A climb puts names with slashes in front of the path. -/
theorem FileSystem.climb_head (fs : FileSystem) {fuel n : Nat} {path found : Bytes}
    (hpath : path = [] ∨ path.head? = some slash) (h : fs.climb fuel n path = .ok found) :
    found.head? = some slash := by
  fun_induction FileSystem.climb fs fuel n path with
  | case1 fuel path =>
      obtain rfl := Except.ok.inj h
      split_ifs with hempty
      · rfl
      · exact hpath.resolve_left hempty
  | case2 | case4 | case5 => cases h
  | case3 _ _ _ _ _ _ _ _ _ _ _ _ ih => exact ih (.inr rfl) h

theorem Machine.absolute : Host.Absolute Machine := by
  intro place m path h
  exact FileSystem.climb_head m.files (.inl rfl) h

namespace Shell

/-- On the machine a rejected line adds the message to the diagnostics, and that is all. -/
theorem runLine_rejected_machine {t : Bytes} (ht : Rejected t) {s : Shell Machine}
    (hopen : s.descriptors.file? 2 = some .diagnostics) :
    (runLine t).run s =
      (.ok (), { s with
        host := { s.host with
          diagnostics := s.host.diagnostics ++ utf8 "Syntax error.\n" } }) := by
  rw [runLine_rejected ht, hopen]
  rfl

/-- A line whose fault comes after a redirection and a builtin, and a line without fault. -/
theorem runLine_atomic_machine :
    Rejected (utf8 "a >f; cd x & b | | c; d") ∧ ¬ Rejected (utf8 "a >f; cd x & pwd y") ∧
      (∀ s : Shell Machine, (runLine (utf8 "a >f; cd x & b | | c; d")).run s =
        (.ok (),
          match s.descriptors.file? 2 with
          | some file => { s with host := Host.write file (utf8 "Syntax error.\n") s.host }
          | none => s)) ∧
      ∀ write : OpenFile → Bytes → Machine → Machine,
        (∀ file text, text ≠ utf8 "Syntax error.\n" → write file text = Host.write file text) →
          @runLine Machine (Host.rewired write) (utf8 "a >f; cd x & pwd y") =
            runLine (utf8 "a >f; cd x & pwd y") := by
  have hrejected : Rejected (utf8 "a >f; cd x & b | | c; d") := by decide +kernel
  have haccepted : ¬ Rejected (utf8 "a >f; cd x & pwd y") := by decide +kernel
  exact ⟨hrejected, haccepted, ((runLine_atomic Machine.absolute _).1 hrejected).1,
    (runLine_atomic Machine.absolute _).2 haccepted⟩

end Shell

end JobShell
