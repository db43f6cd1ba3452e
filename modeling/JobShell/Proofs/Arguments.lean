/-
**The arguments of `kill` are read exactly, and of two mistakes the first is told.**

The words of a `kill` have two forms: with a process alone, which is asked to end, and with a signal
behind a minus sign before it.  The signal is read first, then it is looked up, and only then is the
process read; so a mistake in the process is told only if there is none in the signal.  Words of a
third form are told how `kill` is used, whatever they hold.

All words are of one of these kinds, and what is read of each kind is known.  So what is read, and
what is told, is known of all words, in both directions.

Main definitions:

* `JobShell.KillRequest` — what words ask for;
* `JobShell.KillFault` — what is wrong with words.

Main results:

* `JobShell.numberArgument_eq_ok_iff`, `JobShell.numberArgument_eq_error_iff` — what is a number, and
  that there is one complaint of all else;
* `JobShell.killRequest_or_killFault` — words ask for something, or something is wrong with them;
* `JobShell.killArguments_exact` — **what is read of a `kill`, and what is told.**
-/

import JobShell.Builtin
import JobShell.Proofs.Number

set_option autoImplicit false

namespace JobShell

variable {b : Bytes} {words : List Bytes} {n p : Int} {s : Nat} {e : BuiltinError}

/-! ### Numbers -/

theorem numberArgument_eq_ok_iff : numberArgument b = .ok n ↔ Int32Numeral b n := by
  rw [← int32?_eq_some_iff]
  unfold numberArgument
  cases int32? b <;> simp

/-- There is one complaint of what is no number, and it names all of it. -/
theorem numberArgument_eq_error_iff :
    numberArgument b = .error e ↔ e = .number b ∧ ∀ n, ¬ Int32Numeral b n := by
  simp only [← int32?_eq_some_iff]
  unfold numberArgument
  cases int32? b with
  | some m => simp
  | none => simp [eq_comm]

/-! ### The words of a `kill` -/

/-- What the words of a `kill` ask for, the name first: a signal and a process.  Without a signal
the process is asked to end. -/
inductive KillRequest : List Bytes → Nat → Int → Prop where
  | plain {name pid : Bytes} {p : Int} (process : Int32Numeral pid p) :
      KillRequest [name, pid] 15 p
  | signalled {name digits pid : Bytes} {s : Nat} {p : Int} (number : Int32Numeral digits s)
      (least : 1 ≤ s) (greatest : s ≤ 31) (process : Int32Numeral pid p) :
      KillRequest [name, minus :: digits, pid] s p

/-- What is wrong with the words of a `kill`, the name first. -/
inductive KillFault : List Bytes → BuiltinError → Prop where
  /-- The words have neither of the two forms. -/
  | form {words : List Bytes} (plain : ∀ name pid, words ≠ [name, pid])
      (signalled : ∀ name digits pid, words ≠ [name, minus :: digits, pid]) :
      KillFault words killUsage
  /-- The signal is no number; the process may be anything. -/
  | number {name digits pid : Bytes} (number : ∀ n, ¬ Int32Numeral digits n) :
      KillFault [name, minus :: digits, pid] (.number digits)
  /-- The signal has no name; the process may be anything. -/
  | signal {name digits pid : Bytes} {n : Int} (number : Int32Numeral digits n)
      (nameless : ¬ (1 ≤ n ∧ n ≤ 31)) :
      KillFault [name, minus :: digits, pid] (.call Errno.invalid)
  /-- The process is no number, and there is no signal. -/
  | process {name pid : Bytes} (process : ∀ p, ¬ Int32Numeral pid p) :
      KillFault [name, pid] (.number pid)
  /-- The process is no number, and nothing is wrong with the signal. -/
  | processSignalled {name digits pid : Bytes} {s : Nat} (number : Int32Numeral digits s)
      (least : 1 ≤ s) (greatest : s ≤ 31) (process : ∀ p, ¬ Int32Numeral pid p) :
      KillFault [name, minus :: digits, pid] (.number pid)

/-- A signal is looked up by its number. -/
theorem signalArgument_of_named (least : 1 ≤ s) (greatest : s ≤ 31) :
    signalArgument s = .ok s := by
  unfold signalArgument
  rw [if_pos (by omega), Int.toNat_natCast]

theorem killArguments_plain (pid : Bytes) :
    killArguments [pid] = (do
      let p ← numberArgument pid
      return (15, p)) := rfl

theorem killArguments_signalled (digits pid : Bytes) :
    killArguments [minus :: digits, pid] = (do
      let n ← numberArgument digits
      let s ← signalArgument n
      let p ← numberArgument pid
      return (s, p)) := rfl

/-- What words ask for is what is read. -/
theorem KillRequest.read (h : KillRequest words s p) : killArguments words.tail = .ok (s, p) := by
  cases h with
  | plain process =>
      rw [List.tail_cons, killArguments_plain, numberArgument_eq_ok_iff.2 process]
      rfl
  | signalled number least greatest process =>
      rw [List.tail_cons, killArguments_signalled, numberArgument_eq_ok_iff.2 number,
        numberArgument_eq_ok_iff.2 process]
      simp only [bind, Except.bind, signalArgument_of_named least greatest]
      rfl

/-- What is wrong with words is what is told. -/
theorem KillFault.told (h : KillFault words e) : killArguments words.tail = .error e := by
  cases h with
  | form plain signalled =>
      rcases words with _ | ⟨name, _ | ⟨first, _ | ⟨second, _ | ⟨third, rest⟩⟩⟩⟩
      · rfl
      · rfl
      · exact absurd rfl (plain name first)
      · rcases first with _ | ⟨c, digits⟩
        · rfl
        · have hc : c ≠ 45 := by
            rintro rfl
            exact signalled name digits second rfl
          simp only [List.tail_cons, killArguments, if_neg hc]
      · rfl
  | number number =>
      rw [List.tail_cons, killArguments_signalled, numberArgument_eq_error_iff.2 ⟨rfl, number⟩]
      rfl
  | signal number nameless =>
      rw [List.tail_cons, killArguments_signalled, numberArgument_eq_ok_iff.2 number]
      simp only [bind, Except.bind, signalArgument, if_neg nameless]
  | process process =>
      rw [List.tail_cons, killArguments_plain, numberArgument_eq_error_iff.2 ⟨rfl, process⟩]
      rfl
  | processSignalled number least greatest process =>
      rw [List.tail_cons, killArguments_signalled, numberArgument_eq_ok_iff.2 number,
        numberArgument_eq_error_iff.2 ⟨rfl, process⟩]
      simp only [bind, Except.bind, signalArgument_of_named least greatest]

/-- **Words ask for something, or something is wrong with them.** -/
theorem killRequest_or_killFault (words : List Bytes) :
    (∃ s p, KillRequest words s p) ∨ ∃ e, KillFault words e := by
  by_cases hplain : ∃ name pid, words = [name, pid]
  · obtain ⟨name, pid, rfl⟩ := hplain
    by_cases hpid : ∃ p, Int32Numeral pid p
    · obtain ⟨p, hp⟩ := hpid
      exact .inl ⟨15, p, .plain hp⟩
    · exact .inr ⟨_, .process (not_exists.1 hpid)⟩
  by_cases hsignalled : ∃ name digits pid, words = [name, minus :: digits, pid]
  · -- in the order in which they are read: the number of the signal, its name, the process
    obtain ⟨name, digits, pid, rfl⟩ := hsignalled
    by_cases hdigits : ∃ n, Int32Numeral digits n
    case neg => exact .inr ⟨_, .number (not_exists.1 hdigits)⟩
    obtain ⟨n, hn⟩ := hdigits
    by_cases hnamed : 1 ≤ n ∧ n ≤ 31
    case neg => exact .inr ⟨_, .signal hn hnamed⟩
    obtain ⟨s, rfl⟩ := Int.eq_ofNat_of_zero_le (by omega : 0 ≤ n)
    by_cases hpid : ∃ p, Int32Numeral pid p
    case neg =>
      exact .inr ⟨_, .processSignalled hn (by omega) (by omega) (not_exists.1 hpid)⟩
    obtain ⟨p, hp⟩ := hpid
    exact .inl ⟨s, p, .signalled hn (by omega) (by omega) hp⟩
  · refine .inr ⟨killUsage, .form ?_ ?_⟩
    · exact fun name pid h => hplain ⟨name, pid, h⟩
    · exact fun name digits pid h => hsignalled ⟨name, digits, pid, h⟩

theorem killArguments_eq_ok_iff : killArguments words.tail = .ok (s, p) ↔ KillRequest words s p := by
  refine ⟨fun h => ?_, KillRequest.read⟩
  rcases killRequest_or_killFault words with ⟨s', p', hrequest⟩ | ⟨e, hfault⟩
  · have hread := hrequest.read
    rw [h] at hread
    obtain ⟨rfl, rfl⟩ := Prod.mk.inj (Except.ok.inj hread)
    exact hrequest
  · have htold := hfault.told
    rw [h] at htold
    cases htold

theorem killArguments_eq_error_iff : killArguments words.tail = .error e ↔ KillFault words e := by
  refine ⟨fun h => ?_, KillFault.told⟩
  rcases killRequest_or_killFault words with ⟨s, p, hrequest⟩ | ⟨e', hfault⟩
  · have hread := hrequest.read
    rw [h] at hread
    cases hread
  · have htold := hfault.told
    rw [h] at htold
    obtain rfl := Except.error.inj htold
    exact hfault

/-- **Numbers and the arguments of `kill` are read exactly.**

A byte string is read as a number if it is one, and else there is one complaint, which names it.

Of all words, the name first, a signal and a process are read exactly if these are what the words ask
for; and an error is told exactly if it is what is wrong with them.  So words of another form are told
the usage, and a signal that is no number, and then one that has no name, is told before a process
that is no number. -/
theorem killArguments_exact (b : Bytes) (words : List Bytes) :
    (∀ n, numberArgument b = .ok n ↔ Int32Numeral b n) ∧
    (∀ e, numberArgument b = .error e ↔ e = .number b ∧ ∀ n, ¬ Int32Numeral b n) ∧
    (∀ s p, killArguments words.tail = .ok (s, p) ↔ KillRequest words s p) ∧
    ∀ e, killArguments words.tail = .error e ↔ KillFault words e :=
  ⟨fun _ => numberArgument_eq_ok_iff, fun _ => numberArgument_eq_error_iff,
    fun _ _ => killArguments_eq_ok_iff, fun _ => killArguments_eq_error_iff⟩

/-- Of three mistakes the first is told, and of two the first; a second sign is no mistake of itself,
but a number below zero is no signal. -/
example :
    killArguments [utf8 "-x", utf8 "y"] = .error (.number (utf8 "x")) ∧
    killArguments [utf8 "--9", utf8 "y"] = .error (.call Errno.invalid) ∧
    killArguments [utf8 "-+9", utf8 "y"] = .error (.number (utf8 "y")) ∧
    killArguments [utf8 "-+9", utf8 "-1"] = .ok (Signal.kill, -1) := by decide +kernel

end JobShell
