/-
**Two texts joined by a separator.**

A text is put behind another with one of the marks `;`, `&` and `|` between them.  Wherever the
first one stops, at a sign, inside a slot or in blanks, and whatever the second begins with, no
token reaches across the mark, and the parser reads the first text, then the second.  So the first
fault of the first text is the fault of the whole, or else that of the second text is, and two lines
make one line: `;` leaves both as they are, `&` puts the last pipeline of the first into the
background, and `|` makes one pipeline of the last of the first and the first of the second.

Main definitions:

* `JobShell.Line.piped` — a line whose last pipeline goes on as the first of another line.

Main results:

* `JobShell.scan_append_bar`, `JobShell.parseTokens_append_pipe` — tokens and lines across a `|`;
* `JobShell.parse_joined` — **parsing is compositional in the separators**.
-/

import JobShell.Proofs.Rejection

set_option autoImplicit false

namespace JobShell

/-! ### Across a bar -/

/-- No token reaches across a bar. -/
theorem scan_append_bar (t u : Bytes) :
    scan (t ++ bar :: u) = scan t ++ .separator .pipe :: scan u :=
  reads_iff.1 ((reads_scan t).append_apart (.pipe (reads_scan u))
    (startsApart_cons (by decide) (by decide)))

namespace Line

/-- A line before a bar: its last pipeline goes on as the first one of the line after the bar. -/
def piped : Line → Line → Line
  | [], line' => line'
  | [d], line' => d.slots.foldr consSlot line'
  | d :: d' :: line, line' => d :: piped (d' :: line) line'

/-- What is put in front of a line is put in front of the line before a bar. -/
theorem attach_piped (slot : Option Command) (s : Separator) {line : Line} (h : line ≠ [])
    (line' : Line) : attach slot s (piped line line') = piped (attach slot s line) line' := by
  obtain ⟨d, line, rfl⟩ := List.exists_cons_of_ne_nil h
  cases s <;> cases line <;> rfl

/-- Slots in front of a line are the first ones of its first pipeline. -/
theorem foldr_consSlot (slots : List (Option Command)) (d : Draft) (line : Line) :
    slots.foldr consSlot (d :: line) = { d with slots := slots ++ d.slots } :: line := by
  induction slots with
  | nil => rfl
  | cons slot slots ih => rw [List.foldr_cons, ih]; rfl

/-- Of two lines with a bar between them, one pipeline of each makes one. -/
theorem piped_append (init : Line) (last first : Draft) (rest : Line) :
    piped (init ++ [last]) (first :: rest) =
      init ++ ⟨last.slots ++ first.slots, first.background⟩ :: rest := by
  induction init with
  | nil => exact foldr_consSlot last.slots first rest
  | cons d init ih => cases init <;> exact congrArg (d :: ·) ih

/-- The last pipeline before an ampersand runs in the background. -/
theorem ended_background (init : Line) (last : Draft) :
    ended .background (init ++ [last]) = init ++ [{ last with background := true }] := by
  induction init with
  | nil => rfl
  | cons d init ih => cases init <;> exact congrArg (d :: ·) ih

theorem ended_sequence (line : Line) : ended .sequence line = line := by
  cases line <;> rfl

end Line

/-- **The parser reads what stands before a bar, then what stands after it, and makes one pipeline
of the two that meet there.** -/
theorem parseTokens_append_pipe (first rest : List Token) :
    parseTokens (first ++ .separator .pipe :: rest) =
      (parseTokens first).bind fun line => (parseTokens rest).map (Line.piped line) :=
  parseTokens_join (fun _ _ => rfl)
    (fun slot s _ line' hline => Line.attach_piped slot s hline line') first rest

/-! ### Across any separator -/

/-- A line before a separator and the line after it. -/
def Line.joined : Separator → Line → Line → Line
  | .pipe, line, line' => line.piped line'
  | s, line, line' => line.ended s ++ line'

/-- The bytes that are separators. -/
inductive Separator.Marks : Separator → UInt8 → Prop
  | pipe : Marks .pipe bar
  | ends {s : Separator} {mark : UInt8} : s.Ends mark → s.Marks mark

theorem parse_append {s : Separator} {mark : UInt8} (hmark : s.Marks mark) (t u : Bytes) :
    parse (t ++ mark :: u) =
      (parse t).bind fun line => (parse u).map (Line.joined s line) := by
  cases hmark with
  | pipe =>
      rw [parse, scan_append_bar, parseTokens_append_pipe]
      rfl
  | ends hmark =>
      rw [parse, scan_append_separator hmark, parseTokens_append (by cases hmark <;> decide)]
      cases hmark <;> rfl

theorem exists_marks {mark : UInt8} (h : mark ∈ [semicolon, ampersand, bar]) :
    ∃ s : Separator, s.Marks mark := by
  simp only [List.mem_cons, List.not_mem_nil, or_false] at h
  rcases h with rfl | rfl | rfl
  · exact ⟨_, .ends .sequence⟩
  · exact ⟨_, .ends .background⟩
  · exact ⟨_, .pipe⟩

/-- **Parsing is compositional in the separators.**

For all texts `t` and `u`, wherever `t` stops and whatever `u` begins with:

* if `t` is no line, then `t` and `u` with `;`, `&` or `|` between them are no line either, and the
  fault that is told is that of `t`;
* if `t` is a line and `u` is none, the fault that is told is that of `u`, for each of the three;
* if both are lines, `t` ends in a pipeline `last` and `u` begins with a pipeline `first`.  Joined by
  `;` they are the pipelines of `t` followed by those of `u`; joined by `&` they are the same, but
  `last` runs in the background; joined by `|` there is, between the other pipelines of `t` and the
  other pipelines of `u`, one with the slots of `last` followed by those of `first`, which runs in
  the background if `first` does. -/
theorem parse_joined (t u : Bytes) :
    match parse t, parse u with
    | .error e, _ => ∀ mark ∈ [semicolon, ampersand, bar], parse (t ++ mark :: u) = .error e
    | .ok _, .error e => ∀ mark ∈ [semicolon, ampersand, bar], parse (t ++ mark :: u) = .error e
    | .ok line, .ok line' => ∃ init last first rest,
        line = init ++ [last] ∧ line' = first :: rest ∧
        parse (t ++ semicolon :: u) = .ok (line ++ line') ∧
        parse (t ++ ampersand :: u) = .ok (init ++ [{ last with background := true }] ++ line') ∧
        parse (t ++ bar :: u) =
          .ok (init ++ [⟨last.slots ++ first.slots, first.background⟩] ++ rest) := by
  cases ht : parse t with
  | error e =>
      intro mark hmark
      obtain ⟨s, hs⟩ := exists_marks hmark
      rw [parse_append hs, ht]
      rfl
  | ok line =>
      cases hu : parse u with
      | error e =>
          intro mark hmark
          obtain ⟨s, hs⟩ := exists_marks hmark
          rw [parse_append hs, ht, hu]
          rfl
      | ok line' =>
          have hline : line ≠ [] := ne_nil_of_parseTokens ht
          obtain ⟨first, rest, rfl⟩ := List.exists_cons_of_ne_nil (ne_nil_of_parseTokens hu)
          obtain ⟨init, last, rfl⟩ := line.eq_nil_or_concat'.resolve_left hline
          refine ⟨init, last, first, rest, rfl, rfl, ?_, ?_, ?_⟩
          · rw [parse_append (.ends .sequence), ht, hu]
            exact congrArg (fun l => Except.ok (l ++ first :: rest)) (Line.ended_sequence _)
          · rw [parse_append (.ends .background), ht, hu]
            exact congrArg (fun l => Except.ok (l ++ first :: rest)) (Line.ended_background _ _)
          · rw [parse_append .pipe, ht, hu, List.append_assoc]
            exact congrArg Except.ok (Line.piped_append init last first rest)

/-- A bar after a blank, before a sign: the redirection belongs to the joined pipeline's second
slot, and the ampersand after it to the whole pipeline. -/
example : parse (utf8 "a;b " ++ bar :: utf8 ">f c&") =
    .ok [⟨[some ⟨utf8 "a", [], []⟩], false⟩,
      ⟨[some ⟨utf8 "b", [], []⟩, some ⟨utf8 "c", [], [⟨.output, utf8 "f"⟩]⟩], true⟩,
      ⟨[none], false⟩] := by
  decide +kernel

end JobShell
