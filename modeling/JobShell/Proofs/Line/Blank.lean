/-
**Exactly the blank lines ask for nothing.**

A pipeline that is one empty slot is dropped, and a line of which nothing is left is not an error:
nothing runs, and nothing is said.  So it matters which texts are such lines.  They are those of
blanks, `;` and `&` alone.  Every other byte is a token, or a part of one, that ends no pipeline; such
a token is in a command, or it is a `|` with a slot on both sides, or the line has a fault.

Main definitions:

* `JobShell.IsIdle` — the bytes of a line that asks for nothing;
* `JobShell.Token.IsIdle` — its tokens.

Main results:

* `JobShell.Reads.idle_iff`, `JobShell.SlotsOf.idle_iff`, `JobShell.LineOf.idle_iff` — from bytes to
  tokens, and from tokens to pipelines;
* `JobShell.parse_validate_eq_nil_iff` — **a text asks for nothing exactly if it is blanks, `;` and
  `&` alone.**
-/

import JobShell.Proofs.Line.WellFormed

set_option autoImplicit false

namespace JobShell

/-- A blank, `;` or `&`. -/
def IsIdle (c : UInt8) : Prop := isSpace c = true ∨ c = semicolon ∨ c = ampersand

instance : DecidablePred IsIdle := fun c =>
  inferInstanceAs (Decidable (isSpace c = true ∨ c = semicolon ∨ c = ampersand))

/-- A token that ends a pipeline. -/
def Token.IsIdle (x : Token) : Prop := x = .separator .sequence ∨ x = .separator .background

/-- The bytes that are not idle are letters, `|`, `<` and `>`. -/
theorem not_isIdle_iff {c : UInt8} :
    ¬ IsIdle c ↔ isLetter c = true ∨ c = bar ∨ c = less ∨ c = greater := by
  rw [isLetter_iff, IsIdle, not_or, not_or, Bool.not_eq_true]
  constructor
  · rintro ⟨hspace, hsemicolon, hampersand⟩
    by_cases hbar : c = bar
    · exact .inr (.inl hbar)
    by_cases hless : c = less
    · exact .inr (.inr (.inl hless))
    by_cases hgreater : c = greater
    · exact .inr (.inr (.inr hgreater))
    · exact .inl ⟨hspace, hbar, hsemicolon, hampersand, hless, hgreater⟩
  · rintro (⟨hspace, -, hsemicolon, hampersand, -, -⟩ | rfl | rfl | rfl)
    · exact ⟨hspace, hsemicolon, hampersand⟩
    · decide
    · decide
    · decide

/-! ### From bytes to pipelines -/

/-- **Every byte that is not idle shows in the tokens.** -/
theorem Reads.idle_iff {t : Bytes} {tokens : List Token} (h : Reads t tokens) :
    (∀ x ∈ tokens, x.IsIdle) ↔ ∀ c ∈ t, IsIdle c := by
  induction h with
  | nil => simp
  | space hc _ ih => rw [ih, List.forall_mem_cons, and_iff_right (.inl hc)]
  | pipe _ ih | input _ ih | output _ _ ih =>
      rw [List.forall_mem_cons, List.forall_mem_cons, ih]
      exact and_congr_left fun _ => iff_of_false (by simp [Token.IsIdle]) (by decide)
  | append _ ih =>
      rw [List.forall_mem_cons, List.forall_mem_cons]
      exact iff_of_false (fun h => by simp [Token.IsIdle] at h) fun h => absurd h.1 (by decide)
  | sequence _ ih | background _ ih =>
      rw [List.forall_mem_cons, List.forall_mem_cons, ih]
      exact and_congr_left fun _ => iff_of_true (by simp [Token.IsIdle]) (by decide)
  | @word w t tokens hne hletters _ _ _ =>
      obtain ⟨c, w, rfl⟩ := List.exists_cons_of_ne_nil hne
      have hletter : ¬ IsIdle c := not_isIdle_iff.2 (.inl (hletters c (List.mem_cons_self ..)))
      rw [List.forall_mem_cons, List.cons_append, List.forall_mem_cons]
      exact iff_of_false (fun h => by simp [Token.IsIdle] at h) fun h => absurd h.1 hletter

/-- The tokens of a slot end no pipeline, so they are idle only if there are none. -/
theorem SlotOf.idle_iff {tokens : List Token} {slot : Option Command} (h : SlotOf tokens slot) :
    (∀ x ∈ tokens, x.IsIdle) ↔ slot = none := by
  cases h with
  | empty => simp
  | command h => cases h <;> simp [Token.IsIdle]

/-- The tokens of a pipeline are idle exactly if it is one empty slot. -/
theorem SlotsOf.idle_iff {tokens : List Token} {slots : List (Option Command)}
    (h : SlotsOf tokens slots) : (∀ x ∈ tokens, x.IsIdle) ↔ slots = [none] := by
  cases h with
  | last h => rw [h.idle_iff, List.singleton_inj]
  | pipe h hslots =>
      refine iff_of_false (fun hidle => ?_) (fun hslot => ?_)
      · have hpipe := hidle (.separator .pipe) (by simp)
        simp [Token.IsIdle] at hpipe
      · -- behind the `|` there is another slot
        rw [(List.cons.inj hslot).2] at hslots
        cases hslots

/-- The tokens of a line are idle exactly if each of its pipelines is one empty slot. -/
theorem LineOf.idle_iff {tokens : List Token} {line : Line} (h : LineOf tokens line) :
    (∀ x ∈ tokens, x.IsIdle) ↔ ∀ d ∈ line, d.slots = [none] := by
  induction h with
  | last h => rw [h.idle_iff, List.forall_mem_singleton]
  | sequence h _ ih | background h _ ih =>
      rw [List.forall_mem_append, List.forall_mem_cons, List.forall_mem_cons, h.idle_iff, ih]
      exact and_congr_right fun _ => and_iff_right (by simp [Token.IsIdle])

/-- Idle tokens make a line. -/
theorem exists_lineOf_idle {tokens : List Token} (h : ∀ x ∈ tokens, x.IsIdle) :
    ∃ line, LineOf tokens line := by
  induction tokens with
  | nil => exact ⟨_, .last (.last .empty)⟩
  | cons x tokens ih =>
      obtain ⟨hx, htokens⟩ := List.forall_mem_cons.1 h
      obtain ⟨line, hline⟩ := ih htokens
      rcases hx with rfl | rfl
      · exact ⟨_, .sequence (.last .empty) hline⟩
      · exact ⟨_, .background (.last .empty) hline⟩

/-- Nothing is left of a line exactly if each of its pipelines is one empty slot. -/
theorem Line.validate_eq_nil_iff {line : Line} :
    line.validate = .ok [] ↔ ∀ d ∈ line, d.slots = [none] := by
  rw [Line.validate_eq_ok_iff, List.map_nil, List.filter_eq_nil_iff]
  simp [Draft.isBlank]

/-- **A text asks for nothing exactly if it is blanks, `;` and `&` alone.**  A text with any other
byte, be it of a word, a `|` or a redirection sign, has a pipeline that can be run, or it is rejected
with an error. -/
theorem parse_validate_eq_nil_iff (t : Bytes) :
    (parse t >>= Line.validate = .ok [] ↔
      ∀ c ∈ t, isSpace c = true ∨ c = semicolon ∨ c = ampersand) ∧
    ((∃ c ∈ t, isLetter c = true ∨ c = bar ∨ c = less ∨ c = greater) ↔
      (∃ p ps, parse t >>= Line.validate = .ok (p :: ps)) ∨
        ∃ e, parse t >>= Line.validate = .error e) := by
  have hnothing : parse t >>= Line.validate = .ok [] ↔ ∀ c ∈ t, IsIdle c := by
    constructor
    · intro h
      cases hline : parse t with
      | error e => simp [hline, bind, Except.bind] at h
      | ok line =>
          obtain ⟨tokens, hreads, hlineOf⟩ := parse_eq_ok_iff.1 hline
          have hvalidate : line.validate = .ok [] := by
            simpa [hline, bind, Except.bind] using h
          exact hreads.idle_iff.1 (hlineOf.idle_iff.2 (Line.validate_eq_nil_iff.1 hvalidate))
    · intro h
      have hidle := (reads_scan t).idle_iff.2 h
      obtain ⟨line, hlineOf⟩ := exists_lineOf_idle hidle
      rw [parse_eq_ok_iff.2 ⟨scan t, reads_scan t, hlineOf⟩]
      exact Line.validate_eq_nil_iff.2 (hlineOf.idle_iff.1 hidle)
  refine ⟨hnothing, ?_⟩
  have hbyte : (∃ c ∈ t, isLetter c = true ∨ c = bar ∨ c = less ∨ c = greater) ↔
      parse t >>= Line.validate ≠ .ok [] := by
    simp only [Ne, hnothing, Classical.not_forall, not_isIdle_iff, exists_prop]
  rw [hbyte]
  rcases parse t >>= Line.validate with e | _ | ⟨p, ps⟩ <;> simp

/-- Blanks between the signs make no difference, and one `|` does. -/
example : parse (utf8 " ;&\t;\r\n") >>= Line.validate = .ok [] ∧
    parse (utf8 " ;|\t;\r\n") >>= Line.validate = .error .emptyCommand := ⟨rfl, rfl⟩

end JobShell
