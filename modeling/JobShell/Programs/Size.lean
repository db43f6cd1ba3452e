/-
**Sizes as arguments.**

A size is a number with an optional unit, which stands for a power of 1024, or of 1000 if a `B`
follows it.

Main definitions:

* `JobShell.Programs.SizeError` — why a text is no size;
* `JobShell.Programs.readSize` — the size that a text writes;
* `JobShell.Programs.sizeOr` — the same with a complaint;
* `JobShell.Programs.wholeOr`, `JobShell.Programs.countOr` — whole numbers between bounds.
-/

import JobShell.Programs.Request

set_option autoImplicit false

namespace JobShell.Programs

/-- Why a text is no size. -/
inductive SizeError where
  | invalid
  /-- The size does not fit. -/
  | overflow
  deriving DecidableEq, Repr, Inhabited

/-- One more than the greatest size. -/
def sizeLimit : Nat := twoTo 64

/-- The power for which the letter of a unit stands. -/
def unitPower? (c : Char) : Option Nat :=
  (("kKmMgGtTpPeEzZyYrRqQ".toList).zip
    [1, 1, 2, 2, 3, 3, 4, 4, 5, 5, 6, 6, 7, 7, 8, 8, 9, 9, 10, 10]).lookup c

/-- The factor for which the unit at the end of a size stands.  The units that are allowed are
given by their letters; a zero among them allows a `B` or `iB` after the letter. -/
def unitFactor? (units : String) (text : Bytes) : Option Nat :=
  match text.map fun c => Char.ofNat c.toNat with
  | [] => some 1
  | c :: rest =>
    if units.toList.contains c = false then none
    else
      let both := units.toList.contains '0'
      match unitPower? c, rest with
      | some n, [] => some (Nat.pow 1024 n)
      | some n, ['B'] | some n, ['D'] => if both then some (Nat.pow 1000 n) else none
      | some n, ['i', 'B'] => if both then some (Nat.pow 1024 n) else none
      | none, [] =>
        if c = 'b' then some 512 else if c = 'B' then some 1024
        else if c = 'c' then some 1 else if c = 'w' then some 2 else none
      | _, _ => none

/-- The size that a text writes. -/
def readSize (units : String) (text : Bytes) : Except SizeError Nat :=
  let text := text.dropWhile fun c => c = 32 || (9 ≤ c && c ≤ 13)
  let text := if text.head? = some 43 then text.drop 1 else text
  let (value, used) := digitsInFront 10 digit? text.length text
  match unitFactor? units (text.drop used) with
  | none => .error .invalid
  | some factor =>
    if used = 0 ∧ text = [] then .error .invalid
    else
      let size := (if used = 0 then 1 else value) * factor
      if size < sizeLimit then .ok size else .error .overflow

/-- The complaint about a text that is no size. -/
def SizeError.complaint (what : String) (text : Bytes) (e : SizeError) : Bytes :=
  utf8 (what ++ ": ") ++ Quoted.escaped text ++ match e with
    | .invalid => []
    | .overflow => utf8 ": Value too large for defined data type"

/-- The size that a text writes, or a complaint. -/
def sizeOr (units what : String) (text : Bytes) : Except Objection Nat :=
  match readSize units text with
  | .ok size => .ok size
  | .error e => .error (.plain (e.complaint what text))

/-! ### Whole numbers with bounds -/

/-- The greatest number for which a bound is taken for an ordinary one. -/
def ordinaryBound : Int := twoTo 30

/-- The whole number between bounds that a text writes, or a complaint.  The number may have one of
the given units. -/
def wholeOr (units what : String) (lo hi : Int) (text : Bytes) : Except Objection Int :=
  let complain (reason : String) : Except Objection Int :=
    .error (.plain (utf8 (what ++ ": ") ++ Quoted.escaped text ++ utf8 reason))
  let negative := (text.dropWhile fun c => c = 32 || (9 ≤ c && c ≤ 13)).head? = some 45
  let unsigned := if negative then (text.dropWhile (· ≠ 45)).drop 1 else text
  let signed := (unsigned.head?.bind digit?).isSome || negative = false
  match readSize units unsigned, signed with
  | .error .invalid, _ | _, false => complain ""
  | .error .overflow, _ => complain ": Value too large for defined data type"
  | .ok n, true =>
    let value : Int := if negative then -n else n
    if lo ≤ value ∧ value ≤ hi then .ok value
    else if ordinaryBound ≤ value ∨ value < -ordinaryBound then
      complain ": Value too large for defined data type"
    else complain ": Numerical result out of range"

/-- The natural number between bounds that a text writes, or a complaint. -/
def countOr (units what : String) (lo hi : Nat) (text : Bytes) : Except Objection Nat :=
  (wholeOr units what lo hi text).map Int.toNat

end JobShell.Programs
