/-
**The greatest length of a line.**

The settings take any positive number of 64 bits as the greatest length of a line, and the reader
reads one byte more than that, again in 64 bits.  The two agree on every number but one.  With the
greatest number of all, which the settings take like any other, no line can be read: the sum
overflows at every call, whatever the input is.

Main results:

* `JobShell.Settings.load_maxLine` — the greatest length that settings have is a positive number of
  64 bits;
* `JobShell.Feed.nextLine_overflow_iff`, `JobShell.Feed.overflow_mem_readLines_iff` — when the limit
  overflows;
* `JobShell.Settings.load_usable` — **with any other greatest length every call is answered, and
  every line that is short enough is a line**;
* `JobShell.Settings.load_unusable` — the one greatest length with which no call is answered.
-/

import JobShell.Proofs.Input.Lines
import JobShell.Settings

set_option autoImplicit false

namespace JobShell

/-- A count is a number of 64 bits. -/
theorem count?_lt {s : Bytes} {n : Nat} (h : count? s = some n) : n < twoTo 64 := by
  unfold count? at h
  have hfits := (Option.filter_eq_some_iff.1 h).2
  simpa using hfits

namespace Settings

variable {settings settings' : Settings} {arguments : List String}
  {env : String → Option String}

/-! ### What the settings say of lines -/

/-- The environment gives a positive greatest length, or the usual one. -/
theorem ofEnvironment_maxLine (h : ofEnvironment env = .ok settings) :
    1 ≤ settings.maxLine ∧ settings.maxLine < twoTo 64 := by
  unfold ofEnvironment at h
  cases hvalue : env maxLineVariable with
  | none =>
      rw [hvalue] at h
      have husual : settings.maxLine = 2048 := by
        rw [← Except.ok.inj h]
        cases env promptVariable <;> rfl
      rw [husual]
      exact ⟨by decide, by decide⟩
  | some value =>
      rw [hvalue] at h
      simp only at h
      cases hcount : (count? (utf8 value)).filter (0 < ·) with
      | none =>
          rw [hcount] at h
          cases h
      | some n =>
          rw [hcount] at h
          obtain rfl := Except.ok.inj h
          obtain ⟨hn, hpositive⟩ := Option.filter_eq_some_iff.1 hcount
          exact ⟨of_decide_eq_true hpositive, count?_lt hn⟩

/-- No argument changes the greatest length. -/
theorem readArguments_maxLine (h : readArguments settings arguments = .ok (.run settings')) :
    settings'.maxLine = settings.maxLine := by
  -- an option with a value takes two arguments at once
  fun_induction readArguments settings arguments with
  | case1 settings =>
      obtain rfl : settings = settings' := by simpa using h
      rfl
  | case4 _ _ _ _ ih => exact ih h
  | case6 _ _ _ _ _ _ ih => exact ih h
  | _ => simp at h

/-- **The greatest length that settings have is a positive number of 64 bits.** -/
theorem load_maxLine (h : load arguments env = .ok (.run settings)) :
    1 ≤ settings.maxLine ∧ settings.maxLine < twoTo 64 := by
  unfold load at h
  cases henvironment : ofEnvironment env with
  | error e =>
      rw [henvironment] at h
      cases h
  | ok before =>
      rw [henvironment] at h
      have hsame : settings.maxLine = before.maxLine := readArguments_maxLine h
      rw [hsame]
      exact ofEnvironment_maxLine henvironment

end Settings

/-! ### When the limit overflows -/

namespace Feed

variable {limit : Nat}

/-- A call overflows exactly when one byte more than the limit is no number of 64 bits. -/
theorem nextLine_overflow_iff (f : Feed) :
    (f.nextLine limit).1 = .error .overflow ↔ twoTo 64 ≤ limit + 1 := by
  unfold nextLine
  by_cases hlimit : twoTo 64 ≤ limit + 1
  · simp [hlimit]
  · rw [if_neg hlimit]
    rcases f.readUntil (limit + 1) [] with ⟨cause | line, g⟩
    · simp [hlimit]
    · simp only [hlimit, iff_false]
      split
      · simp
      · split
        · rcases g.discardLine with ⟨cause | _, g⟩ <;> simp
        · simp

/-- The input does not matter to whether calls overflow. -/
theorem overflow_mem_readLines_iff (f : Feed) (n : Nat) :
    .error .overflow ∈ f.readLines limit n ↔ 0 < n ∧ twoTo 64 ≤ limit + 1 := by
  induction n generalizing f with
  | zero => simp [readLines]
  | succ n ih =>
      have hfirst := @nextLine_overflow_iff limit f
      rw [readLines, List.mem_cons, ih, eq_comm, hfirst]
      constructor
      · rintro (hlimit | ⟨-, hlimit⟩)
        · exact ⟨n.succ_pos, hlimit⟩
        · exact ⟨n.succ_pos, hlimit⟩
      · rintro ⟨-, hlimit⟩
        exact .inl hlimit

end Feed

/-- The answer to a call is what the piece is read as whose turn it is. -/
theorem Input.answers_getElem? {limit n i : Nat} {stream piece : Bytes} (hi : i < n)
    (hpiece : (Bytes.lines stream)[i]? = some piece) :
    (Input.answers limit stream n)[i]? = some (.ofPiece limit piece) := by
  rw [Input.answers, List.getElem?_map, List.getElem?_range hi, Option.map_some, hpiece]

namespace Settings

variable {settings : Settings} {arguments : List String} {env : String → Option String}

/-- **What the settings accept the reader can use, but for one number.**  Let the settings of an
argument list and an environment be for a run.  Calls for a line never overflow, whatever the input
and however it arrives, exactly if the greatest length is not the greatest number of 64 bits.  In
that case every piece of an input without failures that has at most the greatest length, its newline
not counted, is given as a line by the call whose turn it is. -/
theorem load_usable (hload : load arguments env = .ok (.run settings)) :
    ((∀ (f : Feed) (n : Nat), .error .overflow ∉ f.readLines settings.maxLine n) ↔
      settings.maxLine ≠ twoTo 64 - 1) ∧
    (settings.maxLine ≠ twoTo 64 - 1 → ∀ f : Feed, f.Steady → ∀ (n i : Nat) (piece : Bytes),
      i < n → (Bytes.lines f.rest)[i]? = some piece →
        (content piece).length ≤ settings.maxLine →
          (f.readLines settings.maxLine n)[i]? = some (.ok (.line piece))) := by
  obtain ⟨hpositive, hfits⟩ := load_maxLine hload
  constructor
  · constructor
    · intro hnever hgreatest
      refine hnever ⟨⟨[], 0⟩, 1, []⟩ 1 ?_
      rw [Feed.overflow_mem_readLines_iff]
      omega
    · intro hne f n hmem
      have hlimit := ((f.overflow_mem_readLines_iff n).1 hmem).2
      omega
  · intro hne f hf n i piece hi hpiece hshort
    have hlimit : settings.maxLine + 1 < twoTo 64 := by omega
    rw [hf.readLines hlimit, List.getElem?_map, Input.answers_getElem? hi hpiece, Option.map_some,
      Input.ofPiece, if_pos hshort]

/-- An environment in which the greatest length of a line is set. -/
def limiting (value : String) (name : String) : Option String :=
  if name = maxLineVariable then some value else none

/-- The greatest of the other numbers: a line that is cut inside, and a last one without a
newline. -/
theorem load_usable_greatest :
    load ["-i"] (limiting "18446744073709551614") =
        .ok (.run { interactive := some true, maxLine := 18446744073709551614 }) ∧
      (⟨⟨[.data (utf8 "ab"), .data (utf8 "c\nd")], 0⟩, 2, []⟩ : Feed).readLines
          18446744073709551614 2 = [.ok (.line (utf8 "abc\n")), .ok (.line (utf8 "d"))] := by
  have hload : load ["-i"] (limiting "18446744073709551614") =
      .ok (.run { interactive := some true, maxLine := 18446744073709551614 }) := by
    rfl
  refine ⟨hload, ?_⟩
  have hsteady : (⟨⟨[.data (utf8 "ab"), .data (utf8 "c\nd")], 0⟩, 2, []⟩ : Feed).Steady := by
    refine ⟨by decide, ?_⟩
    intro chunk hchunk
    rcases List.mem_cons.1 hchunk with rfl | hchunk
    · exact ⟨utf8 "ab", by decide, rfl⟩
    · exact ⟨utf8 "c\nd", by decide, by simpa using hchunk⟩
  have husable := (load_usable hload).2 (by decide) _ hsteady 2
  have hfirst := husable 0 (utf8 "abc\n") (by decide) rfl (by decide)
  have hsecond := husable 1 (utf8 "d") (by decide) rfl (by decide)
  refine List.ext_getElem? ?_
  intro i
  match i with
  | 0 => exact hfirst
  | 1 => exact hsecond
  | i + 2 => simp [Feed.readLines]

/-- **The greatest number of 64 bits is taken as a greatest length, and then no line is read.** -/
theorem load_unusable :
    load [] (limiting "18446744073709551615") = .ok (.run { maxLine := 18446744073709551615 }) ∧
      (Feed.arriving 8192 [utf8 "ab\n"]).readLines 18446744073709551615 1 =
        [.error .overflow] := by
  constructor
  · rfl
  · rfl

end Settings

end JobShell
