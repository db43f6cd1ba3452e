/-
**Arguments are read from the left, and what stands behind `-c` is a line, whatever it looks like.**

Whether an argument is an option or a value depends on all that stands before it: the argument behind
a `-c` is its value, and a `-c` that is itself a value has none.  So the arguments are read option by
option, and an option takes one argument or two (`JobShell.Settings.arguments_induction`).  What has
been read is kept as settings, and reading goes on with these; an option that ends the reading ends it
for good.

Main definitions:

* `JobShell.Settings.IsValue` — which arguments are values;
* `JobShell.Settings.AsksInteractive`, `JobShell.Settings.EndsUnpaired` — an `-i` that is an option,
  and a last `-c` that is one;
* `JobShell.Settings.Limits` — the greatest length of a line that an environment sets;
* `JobShell.Settings.laidOver` — settings of later arguments laid over those of earlier ones.

Main results:

* `JobShell.Settings.readArguments_append`, `JobShell.Settings.readArguments_over` — reading goes on
  with what has been read, and what later arguments come to does not depend on it;
* `JobShell.Settings.readArguments_unpaired` — where a value is missing;
* `JobShell.Settings.load_append` — **the settings of two argument lists, one after the other**.
-/

import JobShell.Proofs.Number
import JobShell.Settings

set_option autoImplicit false

namespace JobShell

namespace Settings

variable {s c d : Settings} {a b : List String} {env : String → Option String} {limit : Nat}

/-! ### Options and values -/

/-- The argument at a place is the value of a `-c`: it stands behind one that is not a value
itself. -/
def IsValue (arguments : List String) : Nat → Prop
  | 0 => False
  | i + 1 => arguments[i]? = some "-c" ∧ ¬ IsValue arguments i

/-- There is an `-i` that is not a value. -/
def AsksInteractive (arguments : List String) : Prop :=
  ∃ i, arguments[i]? = some "-i" ∧ ¬ IsValue arguments i

/-- The last argument is a `-c` that is not a value. -/
def EndsUnpaired (arguments : List String) : Prop :=
  arguments.getLast? = some "-c" ∧ ¬ IsValue arguments (arguments.length - 1)

/-- What an argument comes to that is neither `-i` nor `-c`: it ends the reading. -/
def closing (argument : String) : Except SettingsError Invocation :=
  if argument = "-h" ∨ argument = "--help" then .ok .help
  else if argument = "-V" ∨ argument = "--version" then .ok .version
  else .error (.unknownOption argument)

theorem closing_ne_run (argument : String) (c : Settings) : closing argument ≠ .ok (.run c) := by
  unfold closing
  split_ifs <;> nofun

theorem closing_ne_missing (argument option : String) :
    closing argument ≠ .error (.missingArgument option) := by
  unfold closing
  split_ifs <;> nofun

@[simp] theorem readArguments_nil : readArguments s [] = .ok (.run s) := by
  simp [readArguments]

@[simp] theorem readArguments_interactive (rest : List String) :
    readArguments s ("-i" :: rest) = readArguments { s with interactive := some true } rest := by
  rw [readArguments.eq_def]
  simp

@[simp] theorem readArguments_dangling :
    readArguments s ["-c"] = .error (.missingArgument "-c") := by
  simp [readArguments]

@[simp] theorem readArguments_command (line : String) (rest : List String) :
    readArguments s ("-c" :: line :: rest) =
      readArguments { s with command := some line } rest := by
  simp [readArguments]

theorem readArguments_closing {argument : String} (rest : List String) (hi : argument ≠ "-i")
    (hc : argument ≠ "-c") : readArguments s (argument :: rest) = closing argument := by
  rw [readArguments.eq_def]
  simp [closing, hi, hc]

/-- An argument list, cut into its options. -/
theorem arguments_induction {motive : List String → Prop} (nil : motive [])
    (interactive : ∀ rest, motive rest → motive ("-i" :: rest))
    (dangling : motive ["-c"])
    (command : ∀ line rest, motive rest → motive ("-c" :: line :: rest))
    (closing : ∀ argument rest, argument ≠ "-i" → argument ≠ "-c" → motive (argument :: rest))
    (arguments : List String) : motive arguments := by
  induction h : arguments.length using Nat.strongRecOn generalizing arguments with
  | ind n ih =>
      subst h
      rcases arguments with _ | ⟨argument, rest⟩
      · exact nil
      by_cases hi : argument = "-i"
      · subst hi
        exact interactive rest (ih rest.length (by simp) rest rfl)
      by_cases hc : argument = "-c"
      · subst hc
        rcases rest with _ | ⟨line, rest⟩
        · exact dangling
        · exact command line rest (ih rest.length (by simp only [List.length_cons]; omega) rest rfl)
      · exact closing argument rest hi hc

/-! ### Which arguments are values -/

theorem isValue_interactive (rest : List String) (i : Nat) :
    IsValue ("-i" :: rest) (i + 1) ↔ IsValue rest i := by
  induction i with
  | zero => simp [IsValue]
  | succ i ih => rw [IsValue, ih, List.getElem?_cons_succ, IsValue]

/-- The value of a `-c` makes no difference to what stands behind it. -/
theorem isValue_command (line : String) (rest : List String) (i : Nat) :
    IsValue ("-c" :: line :: rest) (i + 2) ↔ IsValue rest i := by
  induction i with
  | zero => simp [IsValue]
  | succ i ih => rw [IsValue, ih, List.getElem?_cons_succ, List.getElem?_cons_succ, IsValue]

@[simp] theorem not_asksInteractive_nil : ¬ AsksInteractive [] := by
  simp [AsksInteractive]

@[simp] theorem not_asksInteractive_dangling : ¬ AsksInteractive ["-c"] := by
  rintro ⟨_ | i, h, -⟩ <;> simp at h

@[simp] theorem asksInteractive_interactive (rest : List String) :
    AsksInteractive ("-i" :: rest) := ⟨0, rfl, id⟩

@[simp] theorem asksInteractive_command (line : String) (rest : List String) :
    AsksInteractive ("-c" :: line :: rest) ↔ AsksInteractive rest := by
  constructor
  · rintro ⟨_ | _ | i, h, hvalue⟩
    · simp at h
    · exact absurd ⟨rfl, id⟩ hvalue
    · exact ⟨i, by simpa using h, by rwa [isValue_command] at hvalue⟩
  · rintro ⟨i, h, hvalue⟩
    exact ⟨i + 2, by simpa using h, by rwa [isValue_command]⟩

theorem endsUnpaired_dangling : EndsUnpaired ["-c"] := ⟨rfl, id⟩

/-- One more option in front leaves a last `-c` as it is. -/
theorem EndsUnpaired.interactive {rest : List String} (h : EndsUnpaired rest) :
    EndsUnpaired ("-i" :: rest) := by
  obtain ⟨hlast, hvalue⟩ := h
  obtain ⟨x, rest, rfl⟩ := List.exists_cons_of_ne_nil (l := rest) (by rintro rfl; simp at hlast)
  exact ⟨by rwa [List.getLast?_cons_cons], by simpa [isValue_interactive] using hvalue⟩

theorem EndsUnpaired.command {line : String} {rest : List String} (h : EndsUnpaired rest) :
    EndsUnpaired ("-c" :: line :: rest) := by
  obtain ⟨hlast, hvalue⟩ := h
  obtain ⟨x, rest, rfl⟩ := List.exists_cons_of_ne_nil (l := rest) (by rintro rfl; simp at hlast)
  refine ⟨by rwa [List.getLast?_cons_cons, List.getLast?_cons_cons], ?_⟩
  simpa [isValue_command] using hvalue

/-! ### Reading goes on -/

/-- **Reading goes on with what has been read.** -/
theorem readArguments_append (h : readArguments s a = .ok (.run c)) (b : List String) :
    readArguments s (a ++ b) = readArguments c b := by
  induction a using arguments_induction generalizing s with
  | nil =>
      obtain rfl : s = c := by simpa using h
      rfl
  | interactive rest ih =>
      rw [readArguments_interactive] at h
      rw [List.cons_append, readArguments_interactive, ih h]
  | dangling => simp at h
  | command line rest ih =>
      rw [readArguments_command] at h
      rw [List.cons_append, List.cons_append, readArguments_command, ih h]
  | closing argument rest hi hc =>
      exact absurd ((readArguments_closing rest hi hc).symm.trans h) (closing_ne_run argument c)

/-- An option that ends the reading ends it for good. -/
theorem readArguments_append_of_ended {r : Except SettingsError Invocation}
    (h : readArguments s a = r) (hrun : ∀ c, r ≠ .ok (.run c))
    (hmissing : ∀ option, r ≠ .error (.missingArgument option)) (b : List String) :
    readArguments s (a ++ b) = r := by
  induction a using arguments_induction generalizing s with
  | nil => exact absurd (h.symm.trans readArguments_nil) (hrun s)
  | interactive rest ih =>
      rw [readArguments_interactive] at h
      rw [List.cons_append, readArguments_interactive, ih h]
  | dangling => exact absurd (h.symm.trans readArguments_dangling) (hmissing _)
  | command line rest ih =>
      rw [readArguments_command] at h
      rw [List.cons_append, List.cons_append, readArguments_command, ih h]
  | closing argument rest hi hc =>
      rw [readArguments_closing rest hi hc] at h
      rw [List.cons_append, readArguments_closing _ hi hc, h]

/-- Where a value is missing, the last argument is a `-c`, and what stands before it has been
read. -/
theorem readArguments_unpaired {option : String}
    (h : readArguments s a = .error (.missingArgument option)) :
    EndsUnpaired a ∧ ∃ before c, a = before ++ ["-c"] ∧ readArguments s before = .ok (.run c) ∧
      (AsksInteractive before ↔ AsksInteractive a) := by
  induction a using arguments_induction generalizing s with
  | nil => simp at h
  | interactive rest ih =>
      rw [readArguments_interactive] at h
      obtain ⟨hends, before, c, rfl, hbefore, -⟩ := ih h
      exact ⟨hends.interactive, "-i" :: before, c, rfl, by simpa using hbefore, by simp⟩
  | dangling => exact ⟨endsUnpaired_dangling, [], s, rfl, readArguments_nil, by simp⟩
  | command line rest ih =>
      rw [readArguments_command] at h
      obtain ⟨hends, before, c, rfl, hbefore, hasks⟩ := ih h
      refine ⟨hends.command, "-c" :: line :: before, c, rfl, by simpa using hbefore, ?_⟩
      simpa using hasks
  | closing argument rest hi hc =>
      exact absurd ((readArguments_closing rest hi hc).symm.trans h) (closing_ne_missing argument option)

/-! ### What later arguments come to -/

/-- Settings without what arguments choose. -/
def plain (s : Settings) : Settings := { s with interactive := none, command := none }

/-- The choices of later arguments laid over settings. -/
def laidOver (d s : Settings) : Settings :=
  { s with interactive := d.interactive.or s.interactive, command := d.command.or s.command }

theorem over_interactive :
    (d.laidOver { s.plain with interactive := some true }).laidOver s =
      d.laidOver { s with interactive := some true } := by
  cases hd : d.interactive <;> simp [laidOver, plain, hd]

theorem over_command (line : String) :
    (d.laidOver { s.plain with command := some line }).laidOver s =
      d.laidOver { s with command := some line } := by
  cases hd : d.command <;> simp [laidOver, plain, hd]

end Settings

/-- Later arguments have been read on top of settings. -/
def Invocation.laidOver (s : Settings) : Invocation → Invocation
  | .run d => .run (d.laidOver s)
  | .help => .help
  | .version => .version

namespace Settings

variable {s c d : Settings} {a b : List String} {env : String → Option String} {limit : Nat}

/-- **What arguments come to does not depend on what has been read before**, and their choices are
laid over the earlier ones. -/
theorem readArguments_over (s : Settings) (b : List String) :
    readArguments s b = (readArguments s.plain b).map (Invocation.laidOver s) := by
  induction b using arguments_induction generalizing s with
  | nil => simp [Except.map, Invocation.laidOver, laidOver, plain]
  | interactive rest ih =>
      rw [readArguments_interactive, readArguments_interactive, ih,
        ih { s.plain with interactive := some true }]
      change (readArguments s.plain rest).map _ = ((readArguments s.plain rest).map _).map _
      cases readArguments s.plain rest with
      | error e => rfl
      | ok r => cases r <;> simp [Except.map, Invocation.laidOver, over_interactive]
  | dangling => simp [Except.map]
  | command line rest ih =>
      rw [readArguments_command, readArguments_command, ih,
        ih { s.plain with command := some line }]
      change (readArguments s.plain rest).map _ = ((readArguments s.plain rest).map _).map _
      cases readArguments s.plain rest with
      | error e => rfl
      | ok r => cases r <;> simp [Except.map, Invocation.laidOver, over_command]
  | closing argument rest hi hc =>
      rw [readArguments_closing rest hi hc, readArguments_closing rest hi hc]
      unfold closing
      split_ifs <;> rfl

/-- Arguments choose whether to be interactive and what to run, and nothing else. -/
theorem readArguments_run (h : readArguments s a = .ok (.run c)) :
    c.plain = s.plain ∧
      (AsksInteractive a → c.interactive = some true) ∧
      (¬ AsksInteractive a → c.interactive = s.interactive) := by
  induction a using arguments_induction generalizing s with
  | nil =>
      obtain rfl : s = c := by simpa using h
      simp
  | interactive rest ih =>
      rw [readArguments_interactive] at h
      obtain ⟨hplain, hasks, hnot⟩ := ih h
      refine ⟨hplain, fun _ => ?_, fun hasks' => absurd (asksInteractive_interactive rest) hasks'⟩
      by_cases hrest : AsksInteractive rest
      · exact hasks hrest
      · exact hnot hrest
  | dangling => simp at h
  | command line rest ih =>
      rw [readArguments_command] at h
      obtain ⟨hplain, hasks, hnot⟩ := ih h
      exact ⟨hplain, by simpa using hasks, by simpa using hnot⟩
  | closing argument rest hi hc =>
      exact absurd ((readArguments_closing rest hi hc).symm.trans h) (closing_ne_run argument c)

/-- What arguments say of being interactive is that, or nothing. -/
theorem readArguments_interactive_cases (h : readArguments s.plain a = .ok (.run c)) :
    c.interactive = some true ∨ c.interactive = none := by
  obtain ⟨-, hasks, hnot⟩ := readArguments_run h
  by_cases hinteractive : AsksInteractive a
  · exact .inl (hasks hinteractive)
  · exact .inr (hnot hinteractive)

/-! ### The environment -/

/-- The greatest length of a line that an environment sets: a positive number of 64 bits, written as
a count, or the usual one. -/
def Limits (env : String → Option String) (limit : Nat) : Prop :=
  match env "PIPESH_MAX_LINE" with
  | none => limit = 2048
  | some value => CountNumeral (utf8 value) limit ∧ 1 ≤ limit ∧ limit < twoTo 64

/-- The settings of an environment, before any argument is read. -/
def initially (env : String → Option String) (limit : Nat) : Settings :=
  { prompt := (env "PIPESH_PROMPT").getD "pipesh> ", maxLine := limit }

theorem filter_count?_eq_some_iff {s : Bytes} {n : Nat} :
    (count? s).filter (0 < ·) = some n ↔ CountNumeral s n ∧ 1 ≤ n ∧ n < twoTo 64 := by
  rw [Option.filter_eq_some_iff, count?_eq_some_iff, decide_eq_true_iff, and_assoc]
  exact and_congr_right fun _ => and_comm

theorem load_of_limits (h : Limits env limit) (arguments : List String) :
    load arguments env = readArguments (initially env limit) arguments := by
  have henvironment : ofEnvironment env = .ok (initially env limit) := by
    unfold Limits at h
    unfold ofEnvironment maxLineVariable promptVariable initially
    cases hvalue : env "PIPESH_MAX_LINE" with
    | none =>
        rw [hvalue] at h
        obtain rfl : limit = 2048 := h
        cases env "PIPESH_PROMPT" <;> rfl
    | some value =>
        rw [hvalue] at h
        simp only [filter_count?_eq_some_iff.2 h]
        cases env "PIPESH_PROMPT" <;> rfl
  rw [load, henvironment]
  rfl

/-- **A greatest length that is no positive number of 64 bits is an error**, whatever the arguments
are. -/
theorem load_of_not_limits {value : String} (hvalue : env "PIPESH_MAX_LINE" = some value)
    (h : ¬ ∃ limit, Limits env limit) (arguments : List String) :
    load arguments env = .error (.invalidNumber "PIPESH_MAX_LINE" value) := by
  have hcount : (count? (utf8 value)).filter (0 < ·) = none := by
    refine Option.eq_none_iff_forall_ne_some.2 fun limit hlimit => h ⟨limit, ?_⟩
    rw [Limits, hvalue]
    exact filter_count?_eq_some_iff.1 hlimit
  have henvironment : ofEnvironment env = .error (.invalidNumber "PIPESH_MAX_LINE" value) := by
    unfold ofEnvironment maxLineVariable
    simp only [hvalue, hcount]
    rfl
  rw [load, henvironment]
  rfl

/-! ### Two argument lists, one after the other -/

/-- A run with the prompt and the greatest length of the environment, with a command or without, and
interactive if that is asked for. -/
def RunsWith (env : String → Option String) (limit : Nat) (command : Option String) (asked : Prop)
    (result : Except SettingsError Invocation) : Prop :=
  ∃ settings, result = .ok (.run settings) ∧
    settings.prompt = (env "PIPESH_PROMPT").getD "pipesh> " ∧ settings.maxLine = limit ∧
    settings.command = command ∧
    (asked → settings.interactive = some true) ∧ (¬ asked → settings.interactive = none)

/-- What later arguments come to, if that is no run, they come to on top of any settings. -/
theorem readArguments_of_not_run (hs : s.plain = c)
    (h : ∀ d, readArguments c b ≠ .ok (.run d)) : readArguments s b = readArguments c b := by
  rw [readArguments_over, hs]
  cases hb : readArguments c b with
  | error e => rfl
  | ok r =>
      cases r with
      | run d => exact absurd hb (h d)
      | help | version => rfl

/-- A run that later arguments come to has the earlier choices where they make none. -/
theorem readArguments_of_run (hs : s.plain = initially env limit)
    (hasked : s.interactive = some true ∨ s.interactive = none)
    (h : readArguments (initially env limit) b = .ok (.run d)) :
    RunsWith env limit (d.command.or s.command)
      (s.interactive = some true ∨ d.interactive = some true) (readArguments s b) := by
  have hd : d.interactive = some true ∨ d.interactive = none :=
    readArguments_interactive_cases (s := initially env limit) h
  refine ⟨d.laidOver s, by rw [readArguments_over, hs, h]; rfl, ?_, ?_, rfl, ?_, ?_⟩
  · exact congrArg Settings.prompt hs
  · exact congrArg Settings.maxLine hs
  · intro hchosen
    change d.interactive.or s.interactive = some true
    rcases hd with hd | hd
    · rw [hd, Option.some_or]
    · rw [hd, Option.none_or]
      exact hchosen.resolve_right (by simp [hd])
  · intro hnot
    obtain ⟨hs', hd'⟩ := not_or.1 hnot
    change d.interactive.or s.interactive = none
    rw [hd.resolve_left hd', Option.none_or]
    exact hasked.resolve_left hs'

theorem RunsWith.congr {command : Option String} {asked asked' : Prop}
    {result : Except SettingsError Invocation} (h : RunsWith env limit command asked result)
    (hasked : asked ↔ asked') : RunsWith env limit command asked' result := by
  rwa [← propext hasked]

/-- **The settings of two argument lists, one after the other.**

In an environment that sets a greatest length which is no positive number of 64 bits, loading fails for
that, whatever the arguments are.  In every other environment, with the greatest length `limit`:

* the empty list is a run, with the prompt and the length of the environment;
* if `a` is a question for help or for the version or has an unknown option, `a ++ b` is the same,
  whatever `b` is;
* if `a` is a run, `a ++ b` is what `b` is, if that is not a run; and if it is one, its command is that
  of `b` or else that of `a`, and it is interactive if one of the two is;
* if a value is missing in `a`, then `a` ends with a `-c` that is not itself the value of one, and
  `a ++ [x] ++ b` is what `b` is, if that is not a run; and if it is one, its command is that of `b` or
  else `x` as it is, and it is interactive if that of `b` is or `a` has an `-i` that is not the value
  of a `-c`. -/
theorem load_append (env : String → Option String) (a b : List String) :
    (∀ value, env "PIPESH_MAX_LINE" = some value →
      (¬ ∃ limit, CountNumeral (utf8 value) limit ∧ 1 ≤ limit ∧ limit < twoTo 64) →
        ∀ arguments, load arguments env = .error (.invalidNumber "PIPESH_MAX_LINE" value)) ∧
    ∀ limit, Limits env limit →
      RunsWith env limit none False (load [] env) ∧
      (∀ r, load a env = r →
        r = .ok .help ∨ r = .ok .version ∨ (∃ argument, r = .error (.unknownOption argument)) →
          load (a ++ b) env = r) ∧
      (∀ c, load a env = .ok (.run c) →
        ((∀ d, load b env ≠ .ok (.run d)) → load (a ++ b) env = load b env) ∧
        ∀ d, load b env = .ok (.run d) →
          RunsWith env limit (d.command.or c.command)
            (c.interactive = some true ∨ d.interactive = some true) (load (a ++ b) env)) ∧
      (∀ option, load a env = .error (.missingArgument option) →
        EndsUnpaired a ∧ ∀ x,
          ((∀ d, load b env ≠ .ok (.run d)) → load (a ++ [x] ++ b) env = load b env) ∧
          ∀ d, load b env = .ok (.run d) →
            RunsWith env limit (d.command.or (some x))
              (d.interactive = some true ∨ AsksInteractive a) (load (a ++ [x] ++ b) env)) := by
  refine ⟨fun value hvalue hnumber => ?_, fun limit hlimits => ?_⟩
  · refine load_of_not_limits hvalue ?_
    simpa only [Limits, hvalue] using hnumber
  simp only [load_of_limits hlimits]
  have hplain : (initially env limit).plain = initially env limit := rfl
  refine ⟨⟨_, readArguments_nil, rfl, rfl, rfl, nofun, fun _ => rfl⟩, ?_, ?_, ?_⟩
  · rintro r hr hended
    refine readArguments_append_of_ended hr ?_ ?_ b
    · rintro c rfl
      simp at hended
    · rintro option rfl
      simp at hended
  · intro c hc
    rw [readArguments_append hc]
    have hcs : c.plain = initially env limit := (readArguments_run hc).1
    have hasked := readArguments_interactive_cases (s := initially env limit) hc
    exact ⟨readArguments_of_not_run hcs, fun d hd => readArguments_of_run hcs hasked hd⟩
  · intro option hmissing
    obtain ⟨hends, before, c, rfl, hbefore, hasks⟩ := readArguments_unpaired hmissing
    refine ⟨hends, fun x => ?_⟩
    obtain ⟨hcs, hyes, hno⟩ := readArguments_run hbefore
    have hasked := readArguments_interactive_cases (s := initially env limit) hbefore
    -- the missing value is the first argument that follows
    have hread : readArguments (initially env limit) (before ++ ["-c"] ++ [x] ++ b) =
        readArguments { c with command := some x } b := by
      rw [List.append_assoc, List.append_assoc, readArguments_append hbefore]
      exact readArguments_command x b
    have hiff : c.interactive = some true ↔ AsksInteractive (before ++ ["-c"]) := by
      rw [← hasks]
      refine ⟨fun h => by_contra fun hnot => ?_, hyes⟩
      rw [hno hnot] at h
      cases h
    rw [hread]
    refine ⟨readArguments_of_not_run hcs, fun d hd => ?_⟩
    refine (readArguments_of_run (s := { c with command := some x }) hcs hasked hd).congr ?_
    rw [or_comm]
    exact or_congr_right hiff

/-- An environment that sets a prompt and a greatest length. -/
def setting (prompt value name : String) : Option String :=
  if name = "PIPESH_PROMPT" then some prompt
  else if name = "PIPESH_MAX_LINE" then some value
  else none

theorem limits_setting : Limits (setting "$ " "+064") 64 :=
  filter_count?_eq_some_iff.1 (by decide +kernel : (count? (utf8 "+064")).filter (0 < ·) = some 64)

/-- A length that is no number; a question behind the value of a `-c`, which looks like one; two runs
with a command each; and a missing value, which is then found in what looks like an option. -/
theorem load_append_mixed :
    load ["--help"] (setting "$ " "6_4") = .error (.invalidNumber "PIPESH_MAX_LINE" "6_4") ∧
      load (["-c", "-V", "-h"] ++ ["-x"]) (setting "$ " "+064") = .ok .help ∧
      RunsWith (setting "$ " "+064") 64 (some "-V") True
        (load (["-i", "-c", "a"] ++ ["-c", "-V"]) (setting "$ " "+064")) ∧
      EndsUnpaired ["-c", "-i", "-c"] ∧
      RunsWith (setting "$ " "+064") 64 (some "-h") False
        (load (["-c", "-i", "-c"] ++ ["-h"] ++ []) (setting "$ " "+064")) := by
  have hnumber : ¬ ∃ limit, CountNumeral (utf8 "6_4") limit ∧ 1 ≤ limit ∧ limit < twoTo 64 := by
    rintro ⟨limit, hlimit⟩
    have hnone : (count? (utf8 "6_4")).filter (0 < ·) = none := by decide +kernel
    cases hnone.symm.trans (filter_count?_eq_some_iff.2 hlimit)
  have hunpaired := ((load_append (setting "$ " "+064") ["-c", "-i", "-c"] []).2 64
    limits_setting).2.2.2 "-c" rfl
  have hasks : ¬ AsksInteractive ["-c", "-i", "-c"] := by simp
  refine ⟨?_, ?_, ?_, hunpaired.1, ?_⟩
  · exact (load_append (setting "$ " "6_4") [] []).1 "6_4" rfl hnumber ["--help"]
  · exact ((load_append (setting "$ " "+064") ["-c", "-V", "-h"] ["-x"]).2 64
      limits_setting).2.1 _ rfl (.inl rfl)
  · have hruns := ((load_append (setting "$ " "+064") ["-i", "-c", "a"] ["-c", "-V"]).2 64
      limits_setting).2.2.1 ⟨"$ ", some true, 64, some "a"⟩ rfl
    exact (hruns.2 ⟨"$ ", none, 64, some "-V"⟩ rfl).congr (by simp)
  · exact ((hunpaired.2 "-h").2 ⟨"$ ", none, 64, none⟩ rfl).congr (by simp [hasks])

end Settings

end JobShell
