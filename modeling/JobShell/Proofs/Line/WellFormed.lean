/-
**The lines that the parser makes.**

A line that has been read has a shape of its own.  It has a pipeline, each pipeline has a slot, its
words and targets are words as the grammar knows them, and no separator stands behind its last
pipeline, which therefore does not run in the background.  What can be run of it are its pipelines
as they are written, but for those that ask for nothing.

Main definitions:

* `JobShell.IsWord` — a byte string that the grammar takes for a word;
* `JobShell.Command.WellFormed`, `JobShell.Line.WellFormed`, `JobShell.Pipeline.WellFormed` — the
  shape of what is read;
* `JobShell.Pipeline.draft` — a pipeline as it is written.

Main results:

* `JobShell.wellFormed_of_parse` — the parser makes well-formed lines;
* `JobShell.Line.validate_eq_ok_iff` — which pipelines of a line can be run;
* `JobShell.Line.WellFormed.validate` — they are well-formed too.
-/

import JobShell.Line.Runnable
import JobShell.Proofs.Line.Grammar

set_option autoImplicit false

namespace JobShell

/-! ### Words -/

/-- A byte string that the grammar takes for a word. -/
def IsWord (w : Bytes) : Prop := w ≠ [] ∧ ∀ c ∈ w, isLetter c = true

instance : DecidablePred IsWord := fun w => inferInstanceAs (Decidable (w ≠ [] ∧ _))

/-- All words of a token list are words. -/
def Spelled (tokens : List Token) : Prop := ∀ w, .item (.word w) ∈ tokens → IsWord w

/-- **What is read of a byte string are words.** -/
theorem Reads.spelled {t : Bytes} {tokens : List Token} (h : Reads t tokens) : Spelled tokens := by
  induction h with
  | nil => exact fun w hw => absurd hw (List.not_mem_nil)
  | space _ _ ih => exact ih
  | pipe _ ih | sequence _ ih | background _ ih | input _ ih | append _ ih | output _ _ ih =>
      intro w hw
      exact ih w (by simpa using hw)
  | word hw hletters _ _ ih =>
      intro w' hw'
      rcases List.mem_cons.1 hw' with heq | hw'
      · cases heq
        exact ⟨hw, hletters⟩
      · exact ih w' hw'

theorem Spelled.append_left {first rest : List Token} (h : Spelled (first ++ rest)) :
    Spelled first := fun w hw => h w (List.mem_append_left _ hw)

theorem Spelled.append_right {first rest : List Token} (h : Spelled (first ++ rest)) :
    Spelled rest := fun w hw => h w (List.mem_append_right _ hw)

theorem Spelled.tail {x : Token} {tokens : List Token} (h : Spelled (x :: tokens)) :
    Spelled tokens := fun w hw => h w (List.mem_cons_of_mem _ hw)

/-! ### Lines -/

/-- All words and targets of a command are words. -/
structure Command.WellFormed (c : Command) : Prop where
  words : ∀ w ∈ c.words, IsWord w
  targets : ∀ r ∈ c.redirections, IsWord r.target

instance : DecidablePred Command.WellFormed := fun c =>
  decidable_of_iff ((∀ w ∈ c.words, IsWord w) ∧ ∀ r ∈ c.redirections, IsWord r.target)
    ⟨fun h => ⟨h.1, h.2⟩, fun h => ⟨h.words, h.targets⟩⟩

/-- A written pipeline has a slot, and its commands are well-formed. -/
structure Draft.WellFormed (d : Draft) : Prop where
  ne_nil : d.slots ≠ []
  commands : ∀ c, some c ∈ d.slots → c.WellFormed

/-- A line has a pipeline, its pipelines are well-formed, and no `&` stands behind the last one. -/
structure Line.WellFormed (line : Line) : Prop where
  ne_nil : line ≠ []
  drafts : ∀ d ∈ line, d.WellFormed
  last : ∀ d, line.getLast? = some d → d.background = false

/-- A pipeline that can be run has a command, and its commands are well-formed. -/
structure Pipeline.WellFormed (p : Pipeline) : Prop where
  ne_nil : p.commands ≠ []
  commands : ∀ c ∈ p.commands, c.WellFormed

theorem Elements.wellFormed {tokens : List Token} {words : List Bytes}
    {redirections : List Redirection} (h : Elements tokens words redirections)
    (hspelled : Spelled tokens) :
    (∀ w ∈ words, IsWord w) ∧ ∀ r ∈ redirections, IsWord r.target := by
  induction h with
  | nil => simp
  | @word w _ _ _ _ ih =>
      obtain ⟨hwords, htargets⟩ := ih hspelled.tail
      exact ⟨List.forall_mem_cons.2 ⟨hspelled w (by simp), hwords⟩, htargets⟩
  | @redirection d w _ _ _ _ ih =>
      obtain ⟨hwords, htargets⟩ := ih hspelled.tail.tail
      exact ⟨hwords, List.forall_mem_cons.2 ⟨hspelled w (by simp), htargets⟩⟩

theorem SlotOf.wellFormed {tokens : List Token} {slot : Option Command} (h : SlotOf tokens slot)
    (hspelled : Spelled tokens) : ∀ c, some c = slot → c.WellFormed := by
  cases h with
  | empty => simp
  | command h =>
      obtain ⟨hwords, htargets⟩ := h.wellFormed hspelled
      rintro _ ⟨⟩
      exact ⟨hwords, htargets⟩

theorem SlotsOf.wellFormed {tokens : List Token} {slots : List (Option Command)}
    (h : SlotsOf tokens slots) (hspelled : Spelled tokens) (background : Bool) :
    Draft.WellFormed ⟨slots, background⟩ := by
  induction h with
  | last h =>
      refine ⟨List.cons_ne_nil _ _, fun c hc => h.wellFormed hspelled c ?_⟩
      exact List.mem_singleton.1 hc
  | pipe h _ ih =>
      refine ⟨List.cons_ne_nil _ _, fun c hc => ?_⟩
      rcases List.mem_cons.1 hc with hc | hc
      · exact h.wellFormed hspelled.append_left c hc
      · exact (ih hspelled.append_right.tail).commands c hc

/-- One more pipeline before a well-formed line. -/
theorem Line.WellFormed.cons {d : Draft} {line : Line} (hd : d.WellFormed) (h : line.WellFormed) :
    Line.WellFormed (d :: line) := by
  refine ⟨List.cons_ne_nil _ _, List.forall_mem_cons.2 ⟨hd, h.drafts⟩, fun d' hd' => h.last d' ?_⟩
  obtain ⟨d'', line, rfl⟩ := List.exists_cons_of_ne_nil h.ne_nil
  rwa [List.getLast?_cons_cons] at hd'

theorem LineOf.wellFormed {tokens : List Token} {line : Line} (h : LineOf tokens line)
    (hspelled : Spelled tokens) : line.WellFormed := by
  induction h with
  | last h =>
      refine ⟨List.cons_ne_nil _ _, ?_, ?_⟩
      · simpa using h.wellFormed hspelled false
      · simp
  | sequence h _ ih | background h _ ih =>
      exact (ih hspelled.append_right.tail).cons (h.wellFormed hspelled.append_left _)

/-- **The parser makes well-formed lines.** -/
theorem wellFormed_of_parse {t : Bytes} {line : Line} (h : parse t = .ok line) :
    line.WellFormed := by
  obtain ⟨tokens, hreads, hline⟩ := parse_eq_ok_iff.1 h
  exact hline.wellFormed hreads.spelled

/-! ### Pipelines that can be run -/

/-- A pipeline as it is written. -/
def Pipeline.draft (p : Pipeline) : Draft := ⟨p.commands.map some, p.background⟩

theorem commandsOf_map_some (commands : List Command) :
    commandsOf (commands.map some) = .ok commands := by
  induction commands with
  | nil => rfl
  | cons c commands ih => simp [commandsOf, ih, bind, Except.bind, pure, Except.pure]

theorem commandsOf_eq_ok_iff {slots : List (Option Command)} {commands : List Command} :
    commandsOf slots = .ok commands ↔ slots = commands.map some := by
  refine ⟨fun h => ?_, fun h => h ▸ commandsOf_map_some commands⟩
  fun_induction commandsOf slots generalizing commands with
  | case1 =>
      obtain rfl := Except.ok.inj h
      rfl
  | case2 => cases h
  | case3 c slots ih =>
      obtain ⟨rest, hslots, h⟩ := eq_ok_of_bind h
      obtain rfl := Except.ok.inj h
      rw [ih hslots, List.map_cons]

theorem Pipeline.draft_runnable (p : Pipeline) : p.draft.runnable = .ok p := by
  rw [Draft.runnable, Pipeline.draft, commandsOf_map_some]
  rfl

theorem Draft.runnable_eq_ok_iff {d : Draft} {p : Pipeline} :
    d.runnable = .ok p ↔ d = p.draft := by
  refine ⟨fun h => ?_, fun h => h ▸ p.draft_runnable⟩
  obtain ⟨commands, hslots, h⟩ := eq_ok_of_bind h
  obtain rfl := Except.ok.inj h
  rw [Pipeline.draft, ← commandsOf_eq_ok_iff.1 hslots]

/-- **What can be run of a line** are its pipelines as they are written, but for the blank ones. -/
theorem Line.validate_eq_ok_iff {line : Line} {ps : List Pipeline} :
    line.validate = .ok ps ↔ line.filter (fun d => !d.isBlank) = ps.map Pipeline.draft := by
  induction line generalizing ps with
  | nil => cases ps <;> simp [Line.validate]
  | cons d line ih =>
      rw [Line.validate]
      by_cases hblank : d.isBlank = true
      · rw [if_pos hblank, ih, List.filter_cons_of_neg (by simpa using hblank)]
      rw [if_neg hblank, List.filter_cons_of_pos (by simpa using hblank)]
      constructor
      · intro h
        obtain ⟨p, hd, h⟩ := eq_ok_of_bind h
        obtain ⟨rest, hrest, h⟩ := eq_ok_of_bind h
        obtain rfl := Except.ok.inj h
        rw [List.map_cons, ← Draft.runnable_eq_ok_iff.1 hd, ih.1 hrest]
      · intro h
        obtain ⟨p, rest, rfl, hd, hrest⟩ := List.map_eq_cons_iff.1 h.symm
        rw [← hd, p.draft_runnable, ih.2 hrest.symm]
        rfl

/-- The pipelines of a well-formed line that can be run are well-formed. -/
theorem Line.WellFormed.validate {line : Line} {ps : List Pipeline} (h : line.WellFormed)
    (hps : line.validate = .ok ps) : ∀ p ∈ ps, p.WellFormed := by
  intro p hp
  have hmem : p.draft ∈ line.filter fun d => !d.isBlank := by
    rw [Line.validate_eq_ok_iff.1 hps]
    exact List.mem_map_of_mem hp
  have hdraft := h.drafts _ (List.mem_filter.1 hmem).1
  refine ⟨fun hnil => hdraft.ne_nil ?_, fun c hc => hdraft.commands c ?_⟩
  · rw [Pipeline.draft, hnil, List.map_nil]
  · exact List.mem_map_of_mem hc

end JobShell
