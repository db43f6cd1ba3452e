/-
**How a line is read as tokens.**

`JobShell.scan` builds the tokens of a byte string from the right, one byte at a time.  What the
tokens of a line *are* is said here without it, by rules that take one token off the front: a word
is a non-empty run of letters that no letter follows, two `>` that touch are one sign, and blanks
are nothing.  The two agree on every byte string, so a line has exactly one list of tokens.

Main definitions:

* `JobShell.Reads` — `Reads t tokens`: the byte string `t` is read as `tokens`.

Main results:

* `JobShell.scan_cons`, `JobShell.scan_letter`, `JobShell.scan_word` — the scanner, token by token;
* `JobShell.Reads.append_apart` — two readings side by side;
* `JobShell.reads_scan` — what the scanner gives is a reading;
* `JobShell.reads_iff` — **and it is the only one**.
-/

import JobShell.Line.Token
import Mathlib.Tactic.SplitIfs

set_option autoImplicit false

namespace JobShell

/-- No letter stands at the beginning of a byte string. -/
def StartsNoLetter (t : Bytes) : Prop := ∀ c, t.head? = some c → isLetter c = false

/-- A byte string is read as tokens.  One rule for each token, and one for blanks. -/
inductive Reads : Bytes → List Token → Prop
  | nil : Reads [] []
  | space {c : UInt8} {t : Bytes} {tokens : List Token} :
      isSpace c = true → Reads t tokens → Reads (c :: t) tokens
  | pipe {t : Bytes} {tokens : List Token} :
      Reads t tokens → Reads (bar :: t) (.separator .pipe :: tokens)
  | sequence {t : Bytes} {tokens : List Token} :
      Reads t tokens → Reads (semicolon :: t) (.separator .sequence :: tokens)
  | background {t : Bytes} {tokens : List Token} :
      Reads t tokens → Reads (ampersand :: t) (.separator .background :: tokens)
  | input {t : Bytes} {tokens : List Token} :
      Reads t tokens → Reads (less :: t) (.item (.sign .input) :: tokens)
  | append {t : Bytes} {tokens : List Token} :
      Reads t tokens → Reads (greater :: greater :: t) (.item (.sign .append) :: tokens)
  | output {t : Bytes} {tokens : List Token} :
      t.head? ≠ some greater → Reads t tokens →
        Reads (greater :: t) (.item (.sign .output) :: tokens)
  | word {w t : Bytes} {tokens : List Token} :
      w ≠ [] → (∀ c ∈ w, isLetter c = true) → StartsNoLetter t → Reads t tokens →
        Reads (w ++ t) (.item (.word w) :: tokens)

/-! ### The classes of bytes -/

theorem isLetter_iff {c : UInt8} :
    isLetter c = true ↔ isSpace c = false ∧ c ≠ bar ∧ c ≠ semicolon ∧ c ≠ ampersand ∧
      c ≠ less ∧ c ≠ greater := by
  simp only [isLetter, isOperator, Bool.and_eq_true, Bool.not_eq_true', Bool.or_eq_false_iff,
    decide_eq_false_iff_not]
  constructor
  · rintro ⟨⟨⟨⟨⟨hg, hl⟩, ha⟩, hb⟩, hsc⟩, hs⟩
    exact ⟨hs, hb, hsc, ha, hl, hg⟩
  · rintro ⟨hs, hb, hsc, ha, hl, hg⟩
    exact ⟨⟨⟨⟨⟨hg, hl⟩, ha⟩, hb⟩, hsc⟩, hs⟩

/-! ### The scanner, token by token -/

@[simp] theorem scan_nil : scan [] = [] := by simp [scan]

/-- Everywhere but at `>>` the scanner puts one byte in front. -/
theorem scan_cons {c : UInt8} {t : Bytes} (h : c = greater → t.head? ≠ some greater) :
    scan (c :: t) = scanByte c t (scan t) := by
  cases t with
  | nil => simp [scan]
  | cons d s =>
      have hcd : ¬(c = greater ∧ d = greater) := fun hcd => h hcd.1 (by simp [hcd.2])
      simp [scan, hcd]

@[simp] theorem scan_append_sign (t : Bytes) :
    scan (greater :: greater :: t) = .item (.sign .append) :: scan t := by
  simp [scan]

theorem scan_output {t : Bytes} (h : t.head? ≠ some greater) :
    scan (greater :: t) = .item (.sign .output) :: scan t := by
  rw [scan_cons fun _ => h]
  simp [scanByte, isSpace, greater, bar, semicolon, ampersand, less]

theorem scan_space {c : UInt8} (t : Bytes) (h : isSpace c = true) : scan (c :: t) = scan t := by
  have hc : c ≠ greater := by
    rintro rfl
    simp [isSpace, greater] at h
  rw [scan_cons fun hg => absurd hg hc]
  simp [scanByte, h]

@[simp] theorem scan_bar (t : Bytes) : scan (bar :: t) = .separator .pipe :: scan t := by
  rw [scan_cons (by simp [bar, greater])]
  simp [scanByte, isSpace, bar]

@[simp] theorem scan_semicolon (t : Bytes) :
    scan (semicolon :: t) = .separator .sequence :: scan t := by
  rw [scan_cons (by simp [semicolon, greater])]
  simp [scanByte, isSpace, bar, semicolon]

@[simp] theorem scan_ampersand (t : Bytes) :
    scan (ampersand :: t) = .separator .background :: scan t := by
  rw [scan_cons (by simp [ampersand, greater])]
  simp [scanByte, isSpace, bar, semicolon, ampersand]

@[simp] theorem scan_less (t : Bytes) : scan (less :: t) = .item (.sign .input) :: scan t := by
  rw [scan_cons (by simp [less, greater])]
  simp [scanByte, isSpace, bar, semicolon, ampersand, less]

/-- A letter is glued to what follows. -/
theorem scan_letter {c : UInt8} (t : Bytes) (h : isLetter c = true) :
    scan (c :: t) = glue c t (scan t) := by
  obtain ⟨hs, hb, hc, ha, hl, hg⟩ := isLetter_iff.1 h
  rw [scan_cons fun hg' => absurd hg' hg]
  simp [scanByte, hs, hb, hc, ha, hl, hg]

/-- A letter that no letter follows is a word by itself. -/
theorem glue_of_startsNoLetter {c : UInt8} {t : Bytes} (tokens : List Token)
    (h : StartsNoLetter t) : glue c t tokens = .item (.word [c]) :: tokens := by
  unfold glue
  split
  next d _ _ _ =>
    have hd : isLetter d = false := h d rfl
    simp [hd]
  next => rfl

/-- A letter before a word joins it. -/
theorem glue_word {c d : UInt8} (s w : Bytes) (tokens : List Token) (h : isLetter d = true) :
    glue c (d :: s) (.item (.word w) :: tokens) = .item (.word (c :: w)) :: tokens := by
  simp [glue, h]

/-- A maximal run of letters is scanned as one word. -/
theorem scan_word {w : Bytes} (t : Bytes) (hw : w ≠ []) (hl : ∀ c ∈ w, isLetter c = true)
    (ht : StartsNoLetter t) : scan (w ++ t) = .item (.word w) :: scan t := by
  induction w with
  | nil => exact absurd rfl hw
  | cons c w ih =>
      have hc : isLetter c = true := hl c (List.mem_cons_self ..)
      rw [List.cons_append, scan_letter _ hc]
      cases w with
      | nil => exact glue_of_startsNoLetter _ ht
      | cons d w =>
          have hd : isLetter d = true := hl d (by simp)
          rw [ih (by simp) fun b hb => hl b (List.mem_cons_of_mem _ hb)]
          exact glue_word _ _ _ hd

/-! ### Readings side by side -/

/-- What follows begins with neither a letter nor a `>`: no token of what stands before it goes
on. -/
def StartsApart (u : Bytes) : Prop := ∀ c, u.head? = some c → isLetter c = false ∧ c ≠ greater

theorem startsApart_cons {c : UInt8} {t : Bytes} (hletter : isLetter c = false)
    (hgreater : c ≠ greater) : StartsApart (c :: t) := by
  intro d hd
  obtain rfl : c = d := by simpa using hd
  exact ⟨hletter, hgreater⟩

/-- **No token reaches across such a place.** -/
theorem Reads.append_apart {t u : Bytes} {first rest : List Token} (ht : Reads t first)
    (hu : Reads u rest) (hapart : StartsApart u) : Reads (t ++ u) (first ++ rest) := by
  induction ht with
  | nil => exact hu
  | space hs _ ih => exact .space hs ih
  | pipe _ ih => exact .pipe ih
  | sequence _ ih => exact .sequence ih
  | background _ ih => exact .background ih
  | input _ ih => exact .input ih
  | append _ ih => exact .append ih
  | @output t _ hhead _ ih =>
      refine .output ?_ ih
      cases t with
      | nil => exact fun hc => (hapart _ hc).2 rfl
      | cons d t => simpa using hhead
  | @word w t _ hw hletters hstart _ ih =>
      rw [List.append_assoc]
      refine .word hw hletters ?_ ih
      cases t with
      | nil => exact fun c hc => (hapart c hc).1
      | cons d t => exact fun c hc => hstart c (by simpa using hc)

/-- Blanks in front are nothing. -/
theorem Reads.blanks {gap t : Bytes} {tokens : List Token} (h : Reads t tokens)
    (hgap : ∀ b ∈ gap, isSpace b = true) : Reads (gap ++ t) tokens := by
  induction gap with
  | nil => exact h
  | cons b gap ih =>
      obtain ⟨hb, hgap⟩ := List.forall_mem_cons.1 hgap
      exact .space hb (ih hgap)

/-! ### The scanner gives the only reading -/

/-- What begins with a letter is read as a word first. -/
theorem Reads.word_of_letter {c : UInt8} {t : Bytes} {tokens : List Token}
    (h : Reads (c :: t) tokens) (hc : isLetter c = true) :
    ∃ w u rest, c :: t = w ++ u ∧ tokens = .item (.word w) :: rest ∧ w ≠ [] ∧
      (∀ b ∈ w, isLetter b = true) ∧ StartsNoLetter u ∧ Reads u rest := by
  obtain ⟨hs, hb, hsc, ha, hl, hg⟩ := isLetter_iff.1 hc
  generalize hct : c :: t = u at h
  cases h with
  | nil => simp at hct
  | space hsp _ => simp_all
  | pipe _ => simp_all
  | sequence _ => simp_all
  | background _ => simp_all
  | input _ => simp_all
  | append _ => simp_all
  | output _ _ => simp_all
  | word hw hletters hu hrest => exact ⟨_, _, _, rfl, rfl, hw, hletters, hu, hrest⟩

/-- Gluing a letter to a reading gives a reading. -/
theorem Reads.glue {c : UInt8} {t : Bytes} {tokens : List Token} (h : Reads t tokens)
    (hc : isLetter c = true) : Reads (c :: t) (JobShell.glue c t tokens) := by
  by_cases ht : StartsNoLetter t
  · rw [glue_of_startsNoLetter _ ht]
    exact @Reads.word [c] t tokens (by simp) (by simpa using hc) ht h
  · -- the letter joins the word with which `t` begins
    cases t with
    | nil => exact absurd (by simp [StartsNoLetter]) ht
    | cons d s =>
        have hd : isLetter d = true := by
          simpa [StartsNoLetter] using ht
        obtain ⟨w, u, rest, hw, rfl, -, hletters, hu, hrest⟩ := h.word_of_letter hd
        rw [glue_word _ _ _ hd, hw]
        refine @Reads.word (c :: w) u rest (by simp) ?_ hu hrest
        intro b hb
        rcases List.mem_cons.1 hb with rfl | hb
        · exact hc
        · exact hletters b hb

/-- **What the scanner gives is a reading.** -/
theorem reads_scan (t : Bytes) : Reads t (scan t) := by
  match t with
  | [] => simpa using Reads.nil
  | c :: t =>
      have ih : Reads t (scan t) := reads_scan t
      by_cases hgg : c = greater ∧ t.head? = some greater
      · -- the only place where two bytes are taken at once
        obtain ⟨rfl, ht⟩ := hgg
        match t with
        | [] => simp at ht
        | d :: s =>
            obtain rfl : d = greater := by simpa using ht
            rw [scan_append_sign]
            exact Reads.append (reads_scan s)
      · rw [scan_cons fun hc ht => hgg ⟨hc, ht⟩]
        unfold scanByte
        split_ifs with hs hb hsc ha hl hg
        · exact Reads.space hs ih
        · exact hb ▸ Reads.pipe ih
        · exact hsc ▸ Reads.sequence ih
        · exact ha ▸ Reads.background ih
        · exact hl ▸ Reads.input ih
        · exact hg ▸ Reads.output (fun ht => hgg ⟨hg, ht⟩) ih
        · exact ih.glue (isLetter_iff.2 ⟨by simpa using hs, hb, hsc, ha, hl, hg⟩)

/-- **A byte string has exactly one reading**, that of the scanner. -/
theorem reads_iff {t : Bytes} {tokens : List Token} : Reads t tokens ↔ scan t = tokens := by
  constructor
  · intro h
    induction h with
    | nil => simp
    | space hs _ ih => rw [scan_space _ hs, ih]
    | pipe _ ih => rw [scan_bar, ih]
    | sequence _ ih => rw [scan_semicolon, ih]
    | background _ ih => rw [scan_ampersand, ih]
    | input _ ih => rw [scan_less, ih]
    | append _ ih => rw [scan_append_sign, ih]
    | output ht _ ih => rw [scan_output ht, ih]
    | word hw hletters ht _ ih => rw [scan_word _ hw hletters ht, ih]
  · rintro rfl
    exact reads_scan t

end JobShell
