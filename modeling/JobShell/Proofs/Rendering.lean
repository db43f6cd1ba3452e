/-
**A line written down again.**

A well-formed line can be written down: its words and redirections with blanks between them, its
slots with `|` between them, and each pipeline but the last with the separator behind it.  Reading
what was written gives the line again, so that writing and reading are inverse to each other on the
lines that there are.  The pipelines that a line runs can be written down in the same way, each of
them with its separator; the empty pipeline behind the last separator is the only one that is
dropped when the text is read.

Several texts are read as one line, and how a command is written is left open: a `Hand` says in
which order its words and redirections stand, and which blanks stand between a sign and its target.

Main definitions:

* `JobShell.Hand`, `JobShell.Hand.plain` — ways to write a command down;
* `JobShell.Line.text` — a line written down;
* `JobShell.closedText` — pipelines written down, each with its separator.

Main results:

* `JobShell.derives_text` — a well-formed line is derived from its text;
* `JobShell.parse_text` — **reading what was written**;
* `JobShell.Shell.runLine_closedText` — **the text of pipelines does what they do**.
-/

import JobShell.Proofs.Line.WellFormed
import JobShell.Proofs.Sequencing

set_option autoImplicit false

namespace JobShell

/-! ### Writing -/

/-- The sign of a redirection. -/
def Direction.sign : Direction → Bytes
  | .input => [less]
  | .output => [greater]
  | .append => [greater, greater]

/-- A word or a redirection, as it stands in a command. -/
inductive Piece where
  | word (text : Bytes)
  | redirection (r : Redirection)

namespace Piece

/-- The word that a piece is. -/
def word? : Piece → Option Bytes
  | .word w => some w
  | .redirection _ => none

/-- The redirection that a piece is. -/
def redirection? : Piece → Option Redirection
  | .word _ => none
  | .redirection r => some r

/-- The word in a piece: itself, or the target. -/
def core : Piece → Bytes
  | .word w => w
  | .redirection r => r.target

/-- The tokens of a piece. -/
def tokens : Piece → List Token
  | .word w => [.item (.word w)]
  | .redirection r => [.item (.sign r.direction), .item (.word r.target)]

/-- A piece written down, with blanks between a sign and its target. -/
def text (gap : Bytes) : Piece → Bytes
  | .word w => w
  | .redirection r => r.direction.sign ++ (gap ++ r.target)

end Piece

/-- A way to write commands down: the order in which the words and redirections of a command stand,
and what stands between a sign and its target. -/
structure Hand where
  pieces : Command → List Piece
  gap : Bytes
  words : ∀ c, (pieces c).filterMap Piece.word? = c.words
  redirections : ∀ c, (pieces c).filterMap Piece.redirection? = c.redirections
  blank : ∀ b ∈ gap, isSpace b = true

/-- The words first, then the redirections, and nothing between a sign and its target. -/
def Hand.plain : Hand where
  pieces c := c.words.map .word ++ c.redirections.map .redirection
  gap := []
  words c := by simp [List.filterMap_append, List.filterMap_map, Function.comp_def, Piece.word?]
  redirections c := by
    simp [List.filterMap_append, List.filterMap_map, Function.comp_def, Piece.redirection?]
  blank := by simp

/-- The byte between two pieces of a command. -/
def blank : UInt8 := 32

/-- A command written down. -/
def Command.text (hand : Hand) (c : Command) : Bytes :=
  Bytes.join blank ((hand.pieces c).map (Piece.text hand.gap))

/-- A slot written down: an empty one is nothing. -/
def slotText (hand : Hand) : Option Command → Bytes
  | none => []
  | some c => c.text hand

/-- A pipeline written down, without the separator behind it. -/
def Draft.text (hand : Hand) (d : Draft) : Bytes := Bytes.join bar (d.slots.map (slotText hand))

/-- The separator behind a pipeline. -/
def Draft.mark (d : Draft) : UInt8 := if d.background then ampersand else semicolon

/-- A line written down: each pipeline but the last has its separator behind it. -/
def Line.text (hand : Hand) : Line → Bytes
  | [] => []
  | [d] => d.text hand
  | d :: line => d.text hand ++ d.mark :: Line.text hand line

/-- Pipelines written down, each of them with its separator behind it. -/
def closedText (hand : Hand) (ps : List Pipeline) : Bytes :=
  ps.flatMap fun p => p.draft.text hand ++ [p.draft.mark]

/-! ### What is written is read -/

variable {hand : Hand}

theorem IsWord.reads {w : Bytes} (h : IsWord w) : Reads w [.item (.word w)] := by
  simpa using Reads.word h.1 h.2 (by simp [StartsNoLetter]) Reads.nil

/-- A target is no sign, with or without blanks before it. -/
theorem IsWord.head_ne_greater {gap w : Bytes} (h : IsWord w)
    (hgap : ∀ b ∈ gap, isSpace b = true) : (gap ++ w).head? ≠ some greater := by
  cases gap with
  | nil =>
      intro hhead
      have := h.2 greater (List.mem_of_mem_head? hhead)
      simp [isLetter, isOperator] at this
  | cons b gap =>
      intro hhead
      obtain rfl : b = greater := by simpa using hhead
      simpa [isSpace, greater] using hgap greater (List.mem_cons_self ..)

theorem Piece.reads {x : Piece} (h : IsWord x.core) : Reads (x.text hand.gap) x.tokens := by
  cases x with
  | word w => exact h.reads
  | redirection r =>
      obtain ⟨direction, target⟩ := r
      have htarget : Reads (hand.gap ++ target) [.item (.word target)] := h.reads.blanks hand.blank
      cases direction with
      | input => exact .input htarget
      | append => exact .append htarget
      | output => exact .output (h.head_ne_greater hand.blank) htarget

theorem join_cons_cons (mark : UInt8) (s t : Bytes) (parts : List Bytes) :
    Bytes.join mark (s :: t :: parts) = s ++ mark :: Bytes.join mark (t :: parts) := by
  simp [Bytes.join, List.intercalate, List.intersperse]

theorem reads_pieces {pieces : List Piece} (h : ∀ x ∈ pieces, IsWord x.core) :
    Reads (Bytes.join blank (pieces.map (Piece.text hand.gap))) (pieces.flatMap Piece.tokens) := by
  induction pieces with
  | nil => exact .nil
  | cons x pieces ih =>
      obtain ⟨hx, hpieces⟩ := List.forall_mem_cons.1 h
      cases pieces with
      | nil => simpa [Bytes.join, List.intercalate] using Piece.reads hx
      | cons y pieces =>
          rw [List.map_cons, List.map_cons, join_cons_cons, List.flatMap_cons]
          refine (Piece.reads hx).append_apart (.space rfl (ih hpieces)) ?_
          exact startsApart_cons (by decide) (by decide)

theorem elements_pieces (pieces : List Piece) :
    Elements (pieces.flatMap Piece.tokens) (pieces.filterMap Piece.word?)
      (pieces.filterMap Piece.redirection?) := by
  induction pieces with
  | nil => exact .nil
  | cons x pieces ih =>
      cases x with
      | word w => exact .word ih
      | redirection r => exact .redirection ih

/-- The words in the pieces of a well-formed command are words. -/
theorem Command.WellFormed.pieces {c : Command} (h : c.WellFormed) :
    ∀ x ∈ hand.pieces c, IsWord x.core := by
  intro x hx
  cases x with
  | word w =>
      refine h.words w ?_
      rw [← hand.words c]
      exact List.mem_filterMap.2 ⟨_, hx, rfl⟩
  | redirection r =>
      refine h.targets r ?_
      rw [← hand.redirections c]
      exact List.mem_filterMap.2 ⟨_, hx, rfl⟩

theorem exists_tokens_of_slot (hand : Hand) {slot : Option Command}
    (h : ∀ c, some c = slot → c.WellFormed) :
    ∃ tokens, Reads (slotText hand slot) tokens ∧ SlotOf tokens slot := by
  cases slot with
  | none => exact ⟨[], .nil, .empty⟩
  | some c =>
      refine ⟨(hand.pieces c).flatMap Piece.tokens, reads_pieces (h c rfl).pieces, ?_⟩
      have helements := elements_pieces (hand.pieces c)
      rw [hand.words, hand.redirections] at helements
      exact .command helements

theorem exists_tokens_of_draft (hand : Hand) {d : Draft} (h : d.WellFormed) :
    ∃ tokens, Reads (d.text hand) tokens ∧ SlotsOf tokens d.slots := by
  obtain ⟨slots, background⟩ := d
  induction slots with
  | nil => exact absurd rfl h.ne_nil
  | cons slot slots ih =>
      obtain ⟨first, hfirst, hslot⟩ := exists_tokens_of_slot hand fun c hc =>
        h.commands c (hc ▸ List.mem_cons_self ..)
      cases slots with
      | nil =>
          refine ⟨first, ?_, .last hslot⟩
          simpa [Draft.text, Bytes.join, List.intercalate] using hfirst
      | cons next slots =>
          obtain ⟨rest, hrest, hslots⟩ := ih ⟨List.cons_ne_nil _ _, fun c hc =>
            h.commands c (List.mem_cons_of_mem _ hc)⟩
          refine ⟨first ++ .separator .pipe :: rest, ?_, .pipe hslot hslots⟩
          rw [Draft.text, List.map_cons, List.map_cons, join_cons_cons]
          exact hfirst.append_apart (.pipe hrest) (startsApart_cons (by decide) (by decide))

/-- The separator behind a pipeline tells whether it runs in the background. -/
theorem exists_tokens_of_cons {d : Draft} {line : Line} {first rest : List Token} {u : Bytes}
    (hd : Reads (d.text hand) first) (hslots : SlotsOf first d.slots) (hu : Reads u rest)
    (hline : LineOf rest line) :
    ∃ tokens, Reads (d.text hand ++ d.mark :: u) tokens ∧ LineOf tokens (d :: line) := by
  obtain ⟨slots, background⟩ := d
  cases background with
  | false => exact ⟨_, hd.append_separator .sequence hu, .sequence hslots hline⟩
  | true => exact ⟨_, hd.append_separator .background hu, .background hslots hline⟩

/-- **A well-formed line is derived from its text.** -/
theorem derives_text {line : Line} (h : line.WellFormed) : Derives (line.text hand) line := by
  induction line with
  | nil => exact absurd rfl h.ne_nil
  | cons d line ih =>
      obtain ⟨first, hfirst, hslots⟩ :=
        exists_tokens_of_draft hand (h.drafts d (List.mem_cons_self ..))
      cases line with
      | nil =>
          obtain ⟨slots, background⟩ := d
          obtain rfl : background = false := h.last _ rfl
          exact ⟨first, hfirst, .last hslots⟩
      | cons next line =>
          have htail : Line.WellFormed (next :: line) :=
            ⟨List.cons_ne_nil _ _, fun d hd => h.drafts d (List.mem_cons_of_mem _ hd),
              fun d hd => h.last d (by rwa [List.getLast?_cons_cons])⟩
          obtain ⟨rest, hrest, hline⟩ := ih htail
          exact exists_tokens_of_cons hfirst hslots hrest hline

/-- **Reading what was written.**  The lines that the parser makes are the well-formed ones, and
however a well-formed line is written down, reading the text gives that line again.  So a text that
is accepted may be replaced by what is written for its line: the parser cannot tell them apart. -/
theorem parse_text (hand : Hand) :
    (∀ line : Line, line.WellFormed ↔ ∃ t, parse t = .ok line) ∧
      (∀ line : Line, line.WellFormed → parse (line.text hand) = .ok line) ∧
      ∀ t line, parse t = .ok line → parse (line.text hand) = parse t := by
  have written : ∀ line : Line, line.WellFormed → parse (line.text hand) = .ok line := fun _ h =>
    parse_eq_ok_iff.2 (derives_text h)
  refine ⟨fun line => ⟨fun h => ⟨_, written line h⟩, ?_⟩, written, fun t line h => ?_⟩
  · rintro ⟨t, h⟩
    exact wellFormed_of_parse h
  · rw [h]
    exact written line (wellFormed_of_parse h)

/-- A line with an empty slot in a pipe, a redirection before a word, and nothing behind its last
separator: in plain hand `>f a | & b < g;` is written down as `a >f|&b <g;`. -/
theorem parse_text_mixed :
    let line : Line :=
      [⟨[some ⟨utf8 "a", [], [⟨.output, utf8 "f"⟩]⟩, none], true⟩,
        ⟨[some ⟨utf8 "b", [], [⟨.input, utf8 "g"⟩]⟩], false⟩, ⟨[none], false⟩]
    line.text .plain = utf8 "a >f|&b <g;" ∧ line.WellFormed ∧
      parse (line.text .plain) = parse (utf8 ">f a | & b < g;") := by
  have h : parse (utf8 ">f a | & b < g;") = .ok _ := rfl
  exact ⟨rfl, ((parse_text .plain).1 _).2 ⟨_, h⟩, (parse_text .plain).2.2 _ _ h⟩

/-! ### The text of pipelines -/

theorem Pipeline.WellFormed.draft {p : Pipeline} (h : p.WellFormed) : p.draft.WellFormed := by
  refine ⟨fun hnil => h.ne_nil (List.map_eq_nil_iff.1 hnil), fun c hc => ?_⟩
  obtain ⟨c', hc', heq⟩ := List.mem_map.1 hc
  cases heq
  exact h.commands c hc'

/-- The pipeline that asks for nothing. -/
def Draft.empty : Draft := ⟨[none], false⟩

theorem Draft.empty_wellFormed : Draft.empty.WellFormed :=
  ⟨List.cons_ne_nil _ _, by simp [Draft.empty]⟩

/-- Behind the last separator stands the pipeline that asks for nothing. -/
theorem closedText_eq (hand : Hand) (ps : List Pipeline) :
    closedText hand ps = Line.text hand (ps.map Pipeline.draft ++ [.empty]) := by
  induction ps with
  | nil => rfl
  | cons p ps ih =>
      have hne : ps.map Pipeline.draft ++ [.empty] ≠ [] := by simp
      obtain ⟨d, line, hline⟩ := List.exists_cons_of_ne_nil hne
      rw [List.map_cons, List.cons_append, hline, Line.text, ← hline, ← ih, closedText,
        List.flatMap_cons, List.append_assoc]
      · rfl
      · exact List.cons_ne_nil _ _

theorem closed_wellFormed {ps : List Pipeline} (h : ∀ p ∈ ps, p.WellFormed) :
    Line.WellFormed (ps.map Pipeline.draft ++ [.empty]) := by
  refine ⟨by simp, fun d hd => ?_, fun d hd => ?_⟩
  · rcases List.mem_append.1 hd with hd | hd
    · obtain ⟨p, hp, rfl⟩ := List.mem_map.1 hd
      exact (h p hp).draft
    · obtain rfl := List.mem_singleton.1 hd
      exact Draft.empty_wellFormed
  · obtain rfl : Draft.empty = d := by simpa using hd
    rfl

/-- Pipelines with commands are not dropped. -/
theorem Pipeline.WellFormed.not_blank {p : Pipeline} (h : p.WellFormed) :
    p.draft.isBlank = false := by
  obtain ⟨c, commands, hcommands⟩ := List.exists_cons_of_ne_nil h.ne_nil
  simp [Draft.isBlank, Pipeline.draft, hcommands]

/-- **Only the empty pipeline behind the last separator is dropped.** -/
theorem validate_closed {ps : List Pipeline} (h : ∀ p ∈ ps, p.WellFormed) :
    Line.validate (ps.map Pipeline.draft ++ [.empty]) = .ok ps := by
  rw [Line.validate_eq_ok_iff, List.filter_append]
  have hkept : (ps.map Pipeline.draft).filter (fun d => !d.isBlank) = ps.map Pipeline.draft := by
    rw [List.filter_eq_self]
    intro d hd
    obtain ⟨p, hp, rfl⟩ := List.mem_map.1 hd
    simp [(h p hp).not_blank]
  rw [hkept]
  exact List.append_nil _

theorem parse_closedText {ps : List Pipeline} (h : ∀ p ∈ ps, p.WellFormed) :
    parse (closedText hand ps) = .ok (ps.map Pipeline.draft ++ [.empty]) := by
  rw [closedText_eq]
  exact parse_eq_ok_iff.2 (derives_text (closed_wellFormed h))

theorem wellFormed_of_validate {t : Bytes} {ps : List Pipeline}
    (h : parse t >>= Line.validate = .ok ps) : ∀ p ∈ ps, p.WellFormed := by
  obtain ⟨line, hline, hps⟩ := exists_of_validate h
  exact (wellFormed_of_parse hline).validate hps

namespace Shell

variable {σ : Type} [Host σ]

theorem runLine_eq_execute {ps : List Pipeline} (h : ∀ p ∈ ps, p.WellFormed) :
    (runLine (closedText hand ps) : ShellM σ Unit) = execute ps := by
  refine runLine_of_validate ?_
  rw [parse_closedText h]
  exact validate_closed h

/-- **The text of pipelines does what they do.**  The text of well-formed pipelines is read as these
pipelines and an empty one, which is dropped; running it as a line is running them, on every host
and from every state, with the same result and the same state after it.  And every line that can be
run does what the text of its pipelines does. -/
theorem runLine_closedText (hand : Hand) :
    (∀ ps : List Pipeline, (∀ p ∈ ps, p.WellFormed) →
      parse (closedText hand ps) = .ok (ps.map Pipeline.draft ++ [.empty]) ∧
        Line.validate (ps.map Pipeline.draft ++ [.empty]) = .ok ps ∧
        ∀ s : Shell σ, (runLine (closedText hand ps)).run s = (execute ps).run s) ∧
      ∀ t ps, parse t >>= Line.validate = .ok ps →
        (∀ p ∈ ps, p.WellFormed) ∧
          ∀ s : Shell σ, (runLine (closedText hand ps)).run s = (runLine t).run s := by
  refine ⟨fun ps h => ⟨parse_closedText h, validate_closed h, fun s => ?_⟩, fun t ps h => ?_⟩
  · rw [runLine_eq_execute h]
  · have hps := wellFormed_of_validate h
    refine ⟨hps, fun s => ?_⟩
    rw [runLine_eq_execute hps, runLine_of_validate h]

/-- A pipe in the background and a command, written down in plain hand and run. -/
theorem runLine_closedText_mixed :
    let ps : List Pipeline :=
      [⟨[⟨utf8 "a", [], [⟨.input, utf8 "f"⟩]⟩, ⟨utf8 "b", [], []⟩], true⟩,
        ⟨[⟨utf8 "c", [utf8 "x"], []⟩], false⟩]
    closedText .plain ps = utf8 "a <f|b&c x;" ∧ (∀ p ∈ ps, p.WellFormed) ∧
      (runLine (closedText .plain ps)).run (Fated.shell (.exited 0)) =
        (execute ps).run (Fated.shell (.exited 0)) ∧
      ((execute ps).run (Fated.shell (.exited 0))).1 = .ok () := by
  intro ps
  have hps : parse (utf8 "a <f|b&c x;") >>= Line.validate = .ok ps := rfl
  have h := (runLine_closedText (σ := Fated) .plain).2 _ ps hps
  have hrun := ((runLine_closedText (σ := Fated) .plain).1 ps h.1).2.2 (Fated.shell (.exited 0))
  exact ⟨rfl, h.1, hrun, by decide +kernel⟩

end Shell

end JobShell
