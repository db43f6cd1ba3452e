/-
**Validation keeps exactly what can be run.**

A line is checked as a whole.  Of its pipelines those that are one empty slot are dropped; if another
one has an empty slot the line is an error, and else the others are kept as they are.  This holds of
every line, also of one that no text is read as, with a pipeline that has no slot at all.

A text is never read as such a line.  So in what is left of it every pipeline has a command, and every
command a name; the shell takes the name without asking, and its launching of a pipeline has a case
for no commands that no text leads to.

Main definitions:

* `JobShell.Shell.spawnChain` — launching commands of which there is a first one.

Main results:

* `JobShell.Line.validate_eq_error_iff` — when validation fails, and how;
* `JobShell.Shell.spawnStages_cons` — launching commands, if there are any;
* `JobShell.validate_exact` — **what validation keeps, and what is known of it when it has been
  read.**
-/

import JobShell.Proofs.Line.WellFormed
import JobShell.Proofs.Rejection

set_option autoImplicit false

namespace JobShell

/-! ### What validation keeps -/

/-- The only error of validation is an empty slot. -/
theorem Line.validate_error {line : Line} {e : LineError} (h : line.validate = .error e) :
    e = .emptyCommand := by
  have hcommands : ∀ (slots : List (Option Command)) e, commandsOf slots = .error e →
      e = .emptyCommand := by
    intro slots e hslots
    fun_induction commandsOf slots generalizing e with
    | case1 => cases hslots
    | case2 => exact (Except.error.inj hslots).symm
    | case3 c slots ih =>
        rcases error_of_bind hslots with hrest | ⟨commands, -, hok⟩
        · exact ih e hrest
        · cases hok
  fun_induction Line.validate line generalizing e with
  | case1 => cases h
  | case2 d line hblank ih => exact ih h
  | case3 d line hblank ih =>
      rcases error_of_bind h with hd | ⟨p, -, h⟩
      · rcases error_of_bind hd with hslots | ⟨commands, -, hok⟩
        · exact hcommands _ _ hslots
        · cases hok
      · rcases error_of_bind h with hline | ⟨ps, -, hok⟩
        · exact ih hline
        · cases hok

/-- Validation succeeds exactly if every pipeline but those that are one empty slot has a command in
every slot. -/
theorem Line.exists_validate_iff {line : Line} :
    (∃ ps, line.validate = .ok ps) ↔ ∀ d ∈ line, d.slots ≠ [none] → none ∉ d.slots := by
  rw [Line.validate_isOk_iff, Line.Complete, List.forall_mem_map]
  exact forall₂_congr fun d _ => or_iff_not_imp_left

/-- Validation fails exactly if some pipeline has an empty slot beside others. -/
theorem Line.validate_eq_error_iff {line : Line} :
    line.validate = .error .emptyCommand ↔ ∃ d ∈ line, d.slots ≠ [none] ∧ none ∈ d.slots := by
  have hfails : line.validate = .error .emptyCommand ↔ ¬ ∃ ps, line.validate = .ok ps := by
    cases h : line.validate with
    | ok ps => simp
    | error e => simp [Line.validate_error h]
  rw [hfails, Line.exists_validate_iff]
  push Not
  rfl

/-! ### What is known of it -/

theorem isWord_iff {w : Bytes} :
    IsWord w ↔ w ≠ [] ∧ ∀ c ∈ w, isSpace c = false ∧ c ≠ bar ∧ c ≠ semicolon ∧ c ≠ ampersand ∧
      c ≠ less ∧ c ≠ greater := by
  simp only [IsWord, isLetter_iff]

namespace Shell

variable {σ : Type} [Host σ]

/-- Launches commands of which there is a first one.  There is no case for no commands. -/
def spawnChain (jobClass : JobClass) (input : Nat) (command : Command) :
    List Command → ShellM σ Unit
  | [] => do
    releasing [input] (launch command input none jobClass)
    close input
  | next :: rest => do
    let (reader, writer) ← releasing [input] makePipe
    releasing [input, reader, writer] (launch command input (some (reader, writer)) jobClass)
    close input
    close writer
    spawnChain jobClass reader next rest

/-- **If there are commands, launching them never comes to the case of none.** -/
theorem spawnStages_cons (jobClass : JobClass) (input : Nat) (command : Command)
    (rest : List Command) :
    (spawnStages jobClass input (command :: rest) : ShellM σ Unit) =
      spawnChain jobClass input command rest := by
  induction rest generalizing input command with
  | nil => rfl
  | cons next rest ih => simp only [spawnStages, spawnChain, ih]

end Shell

/-- **Validation keeps exactly what can be run.**

Every line is validated or is an error for an empty slot.  It is validated exactly if every pipeline
of it, but for those that are one empty slot, has no empty slot; and then the others are what is left,
in order, with their commands and background marks as they are written.

If a text is read as a line and that is validated, then each of its pipelines has a command, and each
command a word, of which the first is its name; the words and the targets are not empty, and hold
neither blanks nor operators; and launching the pipeline never comes to the case of no commands. -/
theorem validate_exact (line : Line) (t : Bytes) :
    ((∃ ps, line.validate = .ok ps) ↔ ∀ d ∈ line, d.slots ≠ [none] → none ∉ d.slots) ∧
    (∀ ps, line.validate = .ok ps →
      ps.map (fun p => ⟨p.commands.map some, p.background⟩) =
        line.filter fun d => d.slots ≠ [none]) ∧
    ((¬ ∃ ps, line.validate = .ok ps) → line.validate = .error .emptyCommand) ∧
    ∀ ps, parse t >>= Line.validate = .ok ps → ∀ p ∈ ps,
      p.commands ≠ [] ∧
      (∀ c ∈ p.commands, c.words ≠ [] ∧ c.words[0]? = some c.name ∧
        ∀ w ∈ c.words ++ c.redirections.map (·.target),
          w ≠ [] ∧ ∀ b ∈ w, isSpace b = false ∧ b ≠ bar ∧ b ≠ semicolon ∧ b ≠ ampersand ∧
            b ≠ less ∧ b ≠ greater) ∧
      ∃ first rest, p.commands = first :: rest ∧
        ∀ (σ : Type) [Host σ] (jobClass : JobClass) (input : Nat),
          (Shell.spawnStages jobClass input p.commands : ShellM σ Unit) =
            Shell.spawnChain jobClass input first rest := by
  refine ⟨Line.exists_validate_iff, fun ps hps => ?_, fun hnone => ?_, fun ps hps p hp => ?_⟩
  · have hfilter := Line.validate_eq_ok_iff.1 hps
    rw [show (fun p : Pipeline => (⟨p.commands.map some, p.background⟩ : Draft)) = Pipeline.draft
      from rfl, ← hfilter]
    refine List.filter_congr fun d _ => ?_
    by_cases hblank : d.slots = [none] <;> simp [Draft.isBlank, hblank]
  · rw [Line.exists_validate_iff] at hnone
    push Not at hnone
    exact Line.validate_eq_error_iff.2 hnone
  · obtain ⟨line, hline, hvalidate⟩ := exists_of_validate hps
    have hwell := (wellFormed_of_parse hline).validate hvalidate p hp
    obtain ⟨first, rest, hcommands⟩ := List.exists_cons_of_ne_nil hwell.ne_nil
    refine ⟨hwell.ne_nil, fun c hc => ⟨List.cons_ne_nil _ _, rfl, fun w hw => isWord_iff.1 ?_⟩,
      first, rest, hcommands, fun σ _ jobClass input => ?_⟩
    · have hword := hwell.commands c hc
      rcases List.mem_append.1 hw with hw | hw
      · exact hword.words w hw
      · obtain ⟨r, hr, rfl⟩ := List.mem_map.1 hw
        exact hword.targets r hr
    · rw [hcommands]
      exact Shell.spawnStages_cons jobClass input first rest

/-- A line that no text is read as, with a blank pipeline, one without a slot and a command; one with
two empty slots; and a text with a blank pipeline between two others. -/
theorem validate_exact_mixed :
    let c : Command := ⟨utf8 "a", [utf8 "x"], [⟨.output, utf8 "f"⟩]⟩
    let d : Command := ⟨utf8 "b", [], []⟩
    (∃ ps, Line.validate [⟨[none], true⟩, ⟨[], false⟩, ⟨[some c], true⟩] = .ok ps) ∧
    Line.validate [⟨[some c], true⟩, ⟨[none, none], false⟩] = .error .emptyCommand ∧
    (parse (utf8 "a >f x & ; b | b") >>= Line.validate = .ok [⟨[c], true⟩, ⟨[d, d], false⟩]) ∧
    ∀ (σ : Type) [Host σ] (jobClass : JobClass) (input : Nat), ∃ first rest, [d, d] = first :: rest ∧
      (Shell.spawnStages jobClass input [d, d] : ShellM σ Unit) =
        Shell.spawnChain jobClass input first rest := by
  intro c d
  have hread : parse (utf8 "a >f x & ; b | b") >>= Line.validate =
      .ok [⟨[c], true⟩, ⟨[d, d], false⟩] := by decide +kernel
  refine ⟨?_, ?_, hread, fun σ _ jobClass input => ?_⟩
  · exact (validate_exact [⟨[none], true⟩, ⟨[], false⟩, ⟨[some c], true⟩] []).1.2 (by decide +kernel)
  · refine (validate_exact [⟨[some c], true⟩, ⟨[none, none], false⟩] []).2.2.1 fun hvalid => ?_
    exact absurd ((validate_exact _ []).1.1 hvalid) (by decide +kernel)
  · obtain ⟨-, -, first, rest, hcommands, hspawn⟩ :=
      (validate_exact [] (utf8 "a >f x & ; b | b")).2.2.2 _ hread ⟨[d, d], false⟩ (by simp)
    exact ⟨first, rest, hcommands, hspawn σ jobClass input⟩

end JobShell
