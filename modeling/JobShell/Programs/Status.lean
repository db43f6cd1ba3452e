/-
**Programs of which only the end counts.**

Main definitions:

* `JobShell.Programs.succeed`, `JobShell.Programs.failing` — a fixed exit code;
* `JobShell.Programs.tty` — whether the input is a terminal;
* `JobShell.Programs.duration?`, `JobShell.Programs.sleep` — waiting.
-/

import JobShell.Programs.Request
import JobShell.Text.Decimal

set_option autoImplicit false

namespace JobShell.Programs

/-- Does nothing, successfully. -/
def succeed (_ : Request) : Prog Nat := return 0

/-- Does nothing, unsuccessfully. -/
def failing (_ : Request) : Prog Nat := return 1

/-- Says that the input is no terminal. -/
def tty (r : Request) : Prog Nat := do
  match r.operands with
  | extra :: _ =>
    let _ ← r.extraOperand extra
    return 2
  | [] =>
    if r.has 's' = false then say (utf8 "not a tty\n")
    return 1

/-- How many milliseconds a wait without end takes. -/
def endless : Nat := 1000000000000000

/-- The milliseconds that a text in seconds, or with a unit, stands for. -/
def duration? (text : Bytes) : Option Nat :=
  let (value, rest) := Decimal.read text
  let factor? : Option Nat := match rest with
    | [] | [115] => some 1
    | [109] => some 60
    | [104] => some 3600
    | [100] => some 86400
    | _ => none
  match value, factor? with
  | .finite negative x, some factor =>
    if rest = text ∨ (negative ∧ x ≠ 0) then none
    else some (min endless (x * 1000 * factor).ceil.toNat)
  | .infinite false, some _ => some endless
  | _, _ => none

/-- Waits. -/
def sleep (r : Request) : Prog Nat := do
  if r.operands = [] then r.missingOperand
  else
    match r.operands.filter fun w => (duration? w).isNone with
    | [] =>
      Prog.ask (.sleep (total (r.operands.filterMap duration?)))
      return 0
    | bad =>
      let _ ← forEach bad fun w => do
        r.complain (utf8 "invalid time interval " ++ Quoted.escaped w)
        return true
      r.tryHelp
      return 1

end JobShell.Programs
