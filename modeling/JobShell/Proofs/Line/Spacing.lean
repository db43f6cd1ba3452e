/-
**Blanks only keep words apart.**

Between two tokens there may be any blanks.  There have to be some where the tokens would else be one:
between two words, and between two `>`.  At every other place of a line blanks may come and go, and
any run of them may be any other run, whatever stands around it: an operator that has no word, a slot
that is empty, or the end of the line.

This is seen at the tokens.  Where no token can reach across a place, the tokens of a byte string are
those of its two parts (`JobShell.scan_append`), and blanks have no tokens.

Main definitions:

* `JobShell.Seam` — a place that no token reaches across;
* `JobShell.Neutral` — a place at which blanks may come and go;
* `JobShell.Respaces` — one change of the blanks of a text.

Main results:

* `JobShell.scan_append` — the tokens across a seam;
* `JobShell.Respaces.scan_eq` — a change of blanks leaves the tokens as they are;
* `JobShell.parse_respaced` — **after any changes of blanks a text is read as before**.
-/

import JobShell.Line.Parse
import JobShell.Proofs.Line.Reading
import Mathlib.Logic.Relation

set_option autoImplicit false

namespace JobShell

variable {t u before after gap : Bytes}

/-! ### Places that no token reaches across -/

/-- No token reaches across the place between `t` and `u`: there is no letter on both sides of it,
and no `>` on both sides. -/
def Seam (t u : Bytes) : Prop :=
  ∀ c d, t.getLast? = some c → u.head? = some d →
    ¬(isLetter c = true ∧ isLetter d = true) ∧ ¬(c = greater ∧ d = greater)

theorem Seam.nil_left (u : Bytes) : Seam [] u := fun _ _ hc => by cases hc

theorem Seam.nil_right (t : Bytes) : Seam t [] := fun _ _ _ hd => by cases hd

/-- A byte that is neither a letter nor a `>` has a seam before it. -/
theorem Seam.cons_right {d : UInt8} (hletter : isLetter d = false) (hgreater : d ≠ greater) :
    Seam t (d :: u) := by
  rintro c _ - ⟨⟩
  exact ⟨fun h => by simp [hletter] at h, fun h => hgreater h.2⟩

/-- It has one behind it as well. -/
theorem Seam.concat_left {c : UInt8} (hletter : isLetter c = false) (hgreater : c ≠ greater) :
    Seam (t ++ [c]) u := by
  intro c' d hc _
  obtain rfl : c = c' := by simpa using hc
  exact ⟨fun h => by simp [hletter] at h, fun h => hgreater h.1⟩

/-- What stands before the last byte makes no difference. -/
theorem Seam.of_append {s : Bytes} (h : Seam (s ++ t) u) : Seam t u := by
  intro c d hc
  exact h c d (by rw [List.getLast?_append, hc, Option.some_or])

theorem Seam.of_cons {b : UInt8} (h : Seam (b :: t) u) : Seam t u := Seam.of_append (s := [b]) h

/-- **Two readings side by side**, with a seam between them. -/
theorem Reads.append_seam {first rest : List Token} (ht : Reads t first) (hu : Reads u rest)
    (hseam : Seam t u) : Reads (t ++ u) (first ++ rest) := by
  induction ht with
  | nil => exact hu
  | space hs _ ih => exact .space hs (ih hseam.of_cons)
  | pipe _ ih => exact .pipe (ih hseam.of_cons)
  | sequence _ ih => exact .sequence (ih hseam.of_cons)
  | background _ ih => exact .background (ih hseam.of_cons)
  | input _ ih => exact .input (ih hseam.of_cons)
  | append _ ih => exact .append (ih hseam.of_cons.of_cons)
  | @output t _ hhead _ ih =>
      refine .output ?_ (ih hseam.of_cons)
      cases t with
      | nil => exact fun hd => (hseam greater greater rfl hd).2 ⟨rfl, rfl⟩
      | cons d t => simpa using hhead
  | @word w t _ hw hletters hstart _ ih =>
      rw [List.append_assoc]
      refine .word hw hletters ?_ (ih hseam.of_append)
      cases t with
      | nil =>
          -- the word ends at the seam, so that no letter follows it
          intro d hd
          rw [List.append_nil] at hseam
          obtain ⟨c, hc⟩ := Option.isSome_iff_exists.1 (List.getLast?_isSome.2 hw)
          have hletter := hletters c (List.mem_of_getLast? hc)
          exact Bool.eq_false_iff.2 fun hd' => (hseam c d hc hd).1 ⟨hletter, hd'⟩
      | cons d t => exact fun c hc => hstart c (by simpa using hc)

/-- **The tokens across a seam.** -/
theorem scan_append (h : Seam t u) : scan (t ++ u) = scan t ++ scan u :=
  reads_iff.1 ((reads_scan t).append_seam (reads_scan u) h)

/-! ### Blanks -/

/-- A blank is no letter. -/
theorem isLetter_of_isSpace {c : UInt8} (h : isSpace c = true) : isLetter c = false := by
  simp [isLetter, h]

theorem ne_greater_of_isSpace {c : UInt8} (h : isSpace c = true) : c ≠ greater := by
  rintro rfl
  cases h

/-- Blanks have no tokens. -/
theorem scan_blanks (hgap : ∀ b ∈ gap, isSpace b = true) : scan gap = [] := by
  simpa using reads_iff.1 (Reads.nil.blanks hgap)

/-- There is a seam on both sides of blanks. -/
theorem seam_blanks (hgap : ∀ b ∈ gap, isSpace b = true) (hne : gap ≠ []) :
    Seam t gap ∧ Seam (t ++ gap) u := by
  constructor
  · obtain ⟨b, rest, rfl⟩ := List.exists_cons_of_ne_nil hne
    have hb := hgap b (List.mem_cons_self ..)
    exact Seam.cons_right (isLetter_of_isSpace hb) (ne_greater_of_isSpace hb)
  · obtain ⟨init, b, rfl⟩ := (List.eq_nil_or_concat gap).resolve_left hne
    rw [List.concat_eq_append] at hgap ⊢
    have hb := hgap b (List.mem_append_right _ (List.mem_singleton_self b))
    rw [← List.append_assoc]
    exact Seam.concat_left (isLetter_of_isSpace hb) (ne_greater_of_isSpace hb)

/-- The tokens around blanks, if there are any. -/
theorem scan_spaced (before after : Bytes) (hgap : ∀ b ∈ gap, isSpace b = true) (hne : gap ≠ []) :
    scan (before ++ gap ++ after) = scan before ++ scan after := by
  rw [scan_append (seam_blanks hgap hne).2, scan_append (seam_blanks (u := after) hgap hne).1,
    scan_blanks hgap, List.append_nil]

/-! ### Changes of blanks -/

/-- A place at which blanks may come and go: the beginning and the end of the text, and both sides of
an operator, unless there is a `>` on both sides of the place. -/
inductive Neutral : Bytes → Bytes → Prop where
  | start (after : Bytes) : Neutral [] after
  | finish (before : Bytes) : Neutral before []
  | behind {c : UInt8} {after : Bytes} (before : Bytes) : isOperator c = true →
      (c = greater → after.head? ≠ some greater) → Neutral (before ++ [c]) after
  | ahead {before : Bytes} {d : UInt8} (after : Bytes) : isOperator d = true →
      (d = greater → before.getLast? ≠ some greater) → Neutral before (d :: after)

theorem isLetter_of_isOperator {c : UInt8} (h : isOperator c = true) : isLetter c = false := by
  simp [isLetter, h]

/-- No token reaches across such a place. -/
theorem Neutral.seam (h : Neutral before after) : Seam before after := by
  cases h with
  | start => exact Seam.nil_left after
  | finish => exact Seam.nil_right before
  | @behind c after before hoperator hgreater =>
      intro c' d hc hd
      obtain rfl : c = c' := by simpa using hc
      refine ⟨fun h => ?_, ?_⟩
      · rw [isLetter_of_isOperator hoperator] at h
        cases h.1
      · rintro ⟨rfl, rfl⟩
        exact hgreater rfl hd
  | @ahead before d after hoperator hgreater =>
      rintro c _ hc ⟨⟩
      refine ⟨fun h => ?_, ?_⟩
      · rw [isLetter_of_isOperator hoperator] at h
        cases h.2
      · rintro ⟨rfl, rfl⟩
        exact hgreater rfl hc

/-- The tokens around blanks that may come and go. -/
theorem Neutral.scan_spaced (h : Neutral before after) (hgap : ∀ b ∈ gap, isSpace b = true) :
    scan (before ++ gap ++ after) = scan (before ++ after) := by
  by_cases hne : gap = []
  · rw [hne, List.append_nil]
  · rw [JobShell.scan_spaced before after hgap hne, scan_append h.seam]

/-- **One change of the blanks of a text**: a run of blanks, or a part of it, becomes another one, or
blanks come or go where they may. -/
inductive Respaces : Bytes → Bytes → Prop where
  | replace (before gap gap' after : Bytes) :
      gap ≠ [] → (∀ b ∈ gap, isSpace b = true) → gap' ≠ [] → (∀ b ∈ gap', isSpace b = true) →
        Respaces (before ++ gap ++ after) (before ++ gap' ++ after)
  | insert (before gap after : Bytes) : Neutral before after → (∀ b ∈ gap, isSpace b = true) →
      Respaces (before ++ after) (before ++ gap ++ after)
  | remove (before gap after : Bytes) : Neutral before after → (∀ b ∈ gap, isSpace b = true) →
      Respaces (before ++ gap ++ after) (before ++ after)

/-- **A change of blanks leaves the tokens as they are.** -/
theorem Respaces.scan_eq (h : Respaces t u) : scan u = scan t := by
  cases h with
  | replace before gap gap' after hne hgap hne' hgap' =>
      rw [scan_spaced before after hgap' hne', scan_spaced before after hgap hne]
  | insert before gap after hneutral hgap => exact hneutral.scan_spaced hgap
  | remove before gap after hneutral hgap => exact (hneutral.scan_spaced hgap).symm

theorem scan_respaced (h : Relation.ReflTransGen Respaces t u) : scan u = scan t := by
  induction h with
  | refl => rfl
  | tail _ hchange ih => exact hchange.scan_eq.trans ih

/-- **Blanks only keep words apart.**  After any number of changes of its blanks a text is read as
the same line as before, or has the same error.  Each change turns a run of blanks into another one,
or lets blanks come or go at the beginning, at the end, or next to an operator, but not between two
`>`.  A line is read the same with its newline and without it. -/
theorem parse_respaced (t : Bytes) :
    (∀ u, Relation.ReflTransGen Respaces t u → parse u = parse t) ∧
      parse (t ++ [newline]) = parse t := by
  have hsame : ∀ u, Relation.ReflTransGen Respaces t u → parse u = parse t := fun u h => by
    rw [parse, scan_respaced h, parse]
  refine ⟨hsame, hsame _ (.single ?_)⟩
  simpa using Respaces.insert t [newline] [] (.finish t) (List.all_eq_true.1 rfl)

/-- Three changes of `a  >>f|b`, and its newline: a tab for the two spaces, a space before the
target, and a newline before the bar. -/
theorem parse_respaced_thrice :
    Relation.ReflTransGen Respaces [97, 32, 32, 62, 62, 102, 124, 98, 10]
        [97, 9, 62, 62, 32, 102, 10, 124, 98] ∧
      parse [97, 9, 62, 62, 32, 102, 10, 124, 98] =
        parse [97, 32, 32, 62, 62, 102, 124, 98, 10] := by
  have hchanges : Relation.ReflTransGen Respaces [97, 32, 32, 62, 62, 102, 124, 98, 10]
      [97, 9, 62, 62, 32, 102, 10, 124, 98] :=
    calc Relation.ReflTransGen Respaces [97, 32, 32, 62, 62, 102, 124, 98, 10]
          [97, 9, 62, 62, 102, 124, 98, 10] :=
        .single (.replace [97] [32, 32] [9] [62, 62, 102, 124, 98, 10]
          (by decide) (List.all_eq_true.1 rfl) (by decide) (List.all_eq_true.1 rfl))
      Relation.ReflTransGen Respaces _ [97, 9, 62, 62, 32, 102, 124, 98, 10] :=
        .single (.insert [97, 9, 62, 62] [32] [102, 124, 98, 10]
          (.behind [97, 9, 62] (by decide) (by decide)) (List.all_eq_true.1 rfl))
      Relation.ReflTransGen Respaces _ [97, 9, 62, 62, 32, 102, 10, 124, 98, 10] :=
        .single (.insert [97, 9, 62, 62, 32, 102] [10] [124, 98, 10]
          (.ahead [98, 10] (by decide) (by decide)) (List.all_eq_true.1 rfl))
      Relation.ReflTransGen Respaces _ [97, 9, 62, 62, 32, 102, 10, 124, 98] :=
        .single (.remove [97, 9, 62, 62, 32, 102, 10, 124, 98] [10] []
          (.finish _) (List.all_eq_true.1 rfl))
  exact ⟨hchanges, (parse_respaced _).1 _ hchanges⟩

end JobShell
