/-
**Numbers, and numbers in decimal digits.**

A number is written in ASCII digits, at least one, with any number of zeros in front.  A signed
number may have one `+` or `-` before the digits, a count one `+`.  What does not fit the range is
no number.

Main definitions:

* `JobShell.twoTo`, `JobShell.total` — powers of two, and sums;
* `JobShell.digits?` — the value of a string of digits;
* `JobShell.int32?` — a signed number of 32 bits;
* `JobShell.count?` — an unsigned number of 64 bits;
* `JobShell.digitsInFront` — the number at the front of a string, in any base.
-/

import JobShell.Text.Utf8

set_option autoImplicit false

namespace JobShell

/-- A power of two: how many values so many bits have. -/
def twoTo (bits : Nat) : Nat := Nat.pow 2 bits

/-- The sum of numbers. -/
def total : List Nat → Nat
  | [] => 0
  | n :: ns => n + total ns

/-! ### Decimal digits -/

/-- The value of an ASCII digit. -/
def digit? (c : UInt8) : Option Nat :=
  if 48 ≤ c ∧ c ≤ 57 then some (c.toNat - 48) else none

/-- The value of digits that follow digits of the given value. -/
def digitsFrom : Nat → Bytes → Option Nat
  | value, [] => some value
  | value, c :: s => do digitsFrom (value * 10 + (← digit? c)) s

/-- The value of a non-empty string of digits. -/
def digits? : Bytes → Option Nat
  | [] => none
  | s => digitsFrom 0 s

/-- The value of digits with an optional sign. -/
def signed? : Bytes → Option Int
  | [] => none
  | c :: s =>
    if c = 43 then (digits? s).map Int.ofNat
    else if c = 45 then (digits? s).map fun n => -Int.ofNat n
    else (digits? (c :: s)).map Int.ofNat

/-- A number from `-2^31` to `2^31 - 1`. -/
def int32? (s : Bytes) : Option Int :=
  (signed? s).filter fun n => -(twoTo 31 : Int) ≤ n ∧ n < twoTo 31

/-- A number from `0` to `2^64 - 1`, without a minus sign. -/
def count? (s : Bytes) : Option Nat :=
  (match s with
    | [] => none
    | c :: s => if c = 43 then digits? s else digits? (c :: s)).filter (· < twoTo 64)

/-! ### Other bases -/

/-- Whether a byte is an octal digit. -/
def isOctal (c : UInt8) : Bool := 48 ≤ c && c ≤ 55

/-- The value of a hexadecimal digit. -/
def hexDigit? (c : UInt8) : Option Nat :=
  if 48 ≤ c ∧ c ≤ 57 then some (c.toNat - 48)
  else if 97 ≤ c ∧ c ≤ 102 then some (c.toNat - 87)
  else if 65 ≤ c ∧ c ≤ 70 then some (c.toNat - 55)
  else none

/-- The value of the digits at the front, at most so many. -/
def digitsInFront (base : Nat) (digit : UInt8 → Option Nat) (most : Nat) (s : Bytes) :
    Nat × Nat :=
  let digits := ((s.take most).map digit).takeWhile (·.isSome)
  (digits.foldl (fun value d => value * base + d.getD 0) 0, digits.length)

/-- The value of an octal digit. -/
def octalDigit? (c : UInt8) : Option Nat := if isOctal c then some (c.toNat - 48) else none

end JobShell
