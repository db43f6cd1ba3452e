/-
**Numbers in decimal digits.**

Digits are read from the left, and the value of those that have been read is carried along.  What
digits stand for is said here without that, by their places: the last digit counts once, the one
before it ten times, and so on.  The two agree on every byte string.

Main definitions:

* `JobShell.IsDigit`, `JobShell.placeValue` — digits, and what they stand for;
* `JobShell.Numeral` — a non-empty string of digits and its number;
* `JobShell.CountNumeral` — a numeral that may have a plus sign;
* `JobShell.SignedNumeral`, `JobShell.Int32Numeral` — one that may have either sign, and one of 32
  bits.

Main results:

* `JobShell.digits?_eq_some_iff` — digits are read as the number they stand for;
* `JobShell.count?_eq_some_iff` — and so are counts, if they fit;
* `JobShell.int32?_eq_some_iff` — and numbers with a sign, if they fit.
-/

import JobShell.Number
import Mathlib.Data.Nat.Digits.Defs

set_option autoImplicit false

namespace JobShell

/-- The ASCII digits. -/
def IsDigit (c : UInt8) : Prop := 48 ≤ c ∧ c ≤ 57

instance : DecidablePred IsDigit := fun c => inferInstanceAs (Decidable (48 ≤ c ∧ c ≤ 57))

/-- The number that a string of digits stands for. -/
def placeValue (s : Bytes) : Nat := Nat.ofDigits 10 (s.reverse.map fun c => c.toNat - 48)

/-- A string of digits, at least one, and the number that it stands for. -/
structure Numeral (s : Bytes) (n : Nat) : Prop where
  ne_nil : s ≠ []
  digits : ∀ c ∈ s, IsDigit c
  value : placeValue s = n

/-- `+` -/
def plus : UInt8 := 43

/-- `-` -/
def minus : UInt8 := 45

/-- A numeral with at most one plus sign before it. -/
def CountNumeral (s : Bytes) (n : Nat) : Prop :=
  ∃ digits, (s = digits ∨ s = plus :: digits) ∧ Numeral digits n

/-- A numeral with at most one sign before it, and the number that it stands for. -/
inductive SignedNumeral : Bytes → Int → Prop where
  | unsigned {digits : Bytes} {n : Nat} (h : Numeral digits n) : SignedNumeral digits n
  | positive {digits : Bytes} {n : Nat} (h : Numeral digits n) : SignedNumeral (plus :: digits) n
  | negative {digits : Bytes} {n : Nat} (h : Numeral digits n) :
      SignedNumeral (minus :: digits) (-n)

/-- A numeral with at most one sign before it, for a number of 32 bits. -/
structure Int32Numeral (s : Bytes) (n : Int) : Prop where
  signed : SignedNumeral s n
  least : -2 ^ 31 ≤ n
  greatest : n ≤ 2 ^ 31 - 1

/-! ### Digits -/

theorem placeValue_cons (c : UInt8) (s : Bytes) :
    placeValue (c :: s) = (c.toNat - 48) * 10 ^ s.length + placeValue s := by
  simp only [placeValue, List.reverse_cons, List.map_append, List.map_cons, List.map_nil,
    Nat.ofDigits_append, Nat.ofDigits_singleton, List.length_map, List.length_reverse]
  rw [Nat.add_comm, Nat.mul_comm]

theorem digit?_eq_some_iff {c : UInt8} {d : Nat} :
    digit? c = some d ↔ IsDigit c ∧ c.toNat - 48 = d := by
  unfold digit? IsDigit
  split_ifs with h <;> simp [h]

/-- What has been read before counts as often as there are places after it. -/
theorem digitsFrom_eq_some_iff {value n : Nat} {s : Bytes} :
    digitsFrom value s = some n ↔
      (∀ c ∈ s, IsDigit c) ∧ value * 10 ^ s.length + placeValue s = n := by
  induction s generalizing value with
  | nil => simp [digitsFrom, placeValue]
  | cons c s ih =>
      have hplaces : (value * 10 + (c.toNat - 48)) * 10 ^ s.length + placeValue s =
          value * 10 ^ (s.length + 1) + placeValue (c :: s) := by
        rw [placeValue_cons, Nat.pow_succ']
        ring
      have hstep : digitsFrom value (c :: s) = some n ↔
          IsDigit c ∧ digitsFrom (value * 10 + (c.toNat - 48)) s = some n := by
        simp only [digitsFrom, bind, Option.bind_eq_some_iff, digit?_eq_some_iff]
        constructor
        · rintro ⟨_, ⟨hc, rfl⟩, hs⟩
          exact ⟨hc, hs⟩
        · rintro ⟨hc, hs⟩
          exact ⟨_, ⟨hc, rfl⟩, hs⟩
      rw [hstep, ih, hplaces, List.forall_mem_cons, List.length_cons, and_assoc]

/-- **Digits are read as the number they stand for**, and nothing else is read. -/
theorem digits?_eq_some_iff {s : Bytes} {n : Nat} : digits? s = some n ↔ Numeral s n := by
  cases s with
  | nil => exact ⟨nofun, fun h => absurd rfl h.ne_nil⟩
  | cons c s =>
      rw [show digits? (c :: s) = digitsFrom 0 (c :: s) from rfl, digitsFrom_eq_some_iff,
        Nat.zero_mul, Nat.zero_add]
      exact ⟨fun h => ⟨List.cons_ne_nil _ _, h.1, h.2⟩, fun h => ⟨h.digits, h.value⟩⟩

/-- A numeral begins with nothing but a digit. -/
theorem Numeral.head_ne {c mark : UInt8} {s : Bytes} {n : Nat} (h : Numeral (c :: s) n)
    (hmark : ¬ IsDigit mark) : c ≠ mark := by
  rintro rfl
  exact hmark (h.digits c (List.mem_cons_self ..))

theorem not_isDigit_plus : ¬ IsDigit plus := by decide

theorem not_isDigit_minus : ¬ IsDigit minus := by decide

/-- **A count is a numeral with at most one plus sign, below the greatest number of 64 bits.** -/
theorem count?_eq_some_iff {s : Bytes} {n : Nat} :
    count? s = some n ↔ CountNumeral s n ∧ n < twoTo 64 := by
  unfold count?
  rw [Option.filter_eq_some_iff, decide_eq_true_iff]
  refine and_congr_left fun _ => ?_
  cases s with
  | nil =>
      refine ⟨nofun, ?_⟩
      rintro ⟨digits, rfl | h, hdigits⟩
      · exact absurd rfl hdigits.ne_nil
      · cases h
  | cons c s =>
      simp only
      by_cases hc : c = 43
      · rw [if_pos hc, digits?_eq_some_iff]
        refine ⟨fun h => ⟨s, .inr (by rw [hc]; rfl), h⟩, ?_⟩
        rintro ⟨digits, rfl | h, hdigits⟩
        · exact absurd hc (hdigits.head_ne not_isDigit_plus)
        · rwa [(List.cons.inj h).2]
      · rw [if_neg hc, digits?_eq_some_iff]
        refine ⟨fun h => ⟨c :: s, .inl rfl, h⟩, ?_⟩
        rintro ⟨digits, rfl | h, hdigits⟩
        · exact hdigits
        · exact absurd (List.cons.inj h).1 hc

/-! ### Signs -/

theorem not_signedNumeral_nil {n : Int} : ¬ SignedNumeral [] n := by
  intro h
  cases h with
  | unsigned h => exact h.ne_nil rfl

theorem signedNumeral_plus {s : Bytes} {n : Int} :
    SignedNumeral (plus :: s) n ↔ ∃ m : Nat, Numeral s m ∧ (m : Int) = n := by
  constructor
  · intro h
    cases h with
    | unsigned h => exact absurd rfl (h.head_ne not_isDigit_plus)
    | positive h => exact ⟨_, h, rfl⟩
  · rintro ⟨m, h, rfl⟩
    exact .positive h

theorem signedNumeral_minus {s : Bytes} {n : Int} :
    SignedNumeral (minus :: s) n ↔ ∃ m : Nat, Numeral s m ∧ -(m : Int) = n := by
  constructor
  · intro h
    cases h with
    | unsigned h => exact absurd rfl (h.head_ne not_isDigit_minus)
    | negative h => exact ⟨_, h, rfl⟩
  · rintro ⟨m, h, rfl⟩
    exact .negative h

theorem signedNumeral_of_head_ne {c : UInt8} {s : Bytes} {n : Int} (hplus : c ≠ plus)
    (hminus : c ≠ minus) :
    SignedNumeral (c :: s) n ↔ ∃ m : Nat, Numeral (c :: s) m ∧ (m : Int) = n := by
  constructor
  · intro h
    cases h with
    | unsigned h => exact ⟨_, h, rfl⟩
    | positive h => exact absurd rfl hplus
    | negative h => exact absurd rfl hminus
  · rintro ⟨m, h, rfl⟩
    exact .unsigned h

/-- One sign is read, and what stands behind it is digits alone. -/
theorem signed?_eq_some_iff {s : Bytes} {n : Int} : signed? s = some n ↔ SignedNumeral s n := by
  have hdigits : ∀ (value : Nat → Int) (digits : Bytes),
      (digits? digits).map value = some n ↔ ∃ m, Numeral digits m ∧ value m = n := by
    intro value digits
    simp only [Option.map_eq_some_iff, digits?_eq_some_iff]
  cases s with
  | nil => exact iff_of_false nofun not_signedNumeral_nil
  | cons c s =>
      simp only [signed?]
      by_cases hplus : c = 43
      · rw [if_pos hplus, show c = plus from hplus, signedNumeral_plus]
        exact hdigits Int.ofNat s
      rw [if_neg hplus]
      by_cases hminus : c = 45
      · rw [if_pos hminus, show c = minus from hminus, signedNumeral_minus]
        exact hdigits (fun m => -Int.ofNat m) s
      · rw [if_neg hminus, signedNumeral_of_head_ne hplus hminus]
        exact hdigits Int.ofNat (c :: s)

/-- **A number is a numeral with at most one sign, from the least to the greatest of 32 bits.** -/
theorem int32?_eq_some_iff {s : Bytes} {n : Int} : int32? s = some n ↔ Int32Numeral s n := by
  have htwo : (twoTo 31 : Int) = 2 ^ 31 := rfl
  unfold int32?
  rw [Option.filter_eq_some_iff, decide_eq_true_iff, signed?_eq_some_iff, htwo]
  constructor
  · rintro ⟨hsigned, hleast, hgreatest⟩
    exact ⟨hsigned, hleast, Int.le_sub_one_of_lt hgreatest⟩
  · intro h
    exact ⟨h.signed, h.least, Int.lt_of_le_sub_one h.greatest⟩

/-- Zeros in front make no difference, and there is one more number below zero than above. -/
example : int32? (utf8 "-0002147483648") = some (-2147483648) ∧ int32? (utf8 "2147483648") = none ∧
    int32? (utf8 "+-1") = none ∧ int32? (utf8 "-") = none := by decide +kernel

end JobShell
