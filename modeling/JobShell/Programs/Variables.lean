/-
**The environment of programs.**

Main definitions:

* `JobShell.Programs.setVariable`, `JobShell.Programs.assignAhead` — an environment with other
  values;
* `JobShell.Programs.printenv` — writing values.
-/

import JobShell.Programs.Request

set_option autoImplicit false

namespace JobShell.Programs

/-- A variable with its value, as one text. -/
def binding (b : Bytes × Bytes) : Bytes := b.1 ++ 61 :: b.2

/-- Gives a variable a value. -/
def setVariable (environment : Environment) (name value : Bytes) : Environment :=
  if environment.any (·.1 = name) then
    environment.map fun b => if b.1 = name then (name, value) else b
  else environment ++ [(name, value)]

/-- The variable and the value that a text with an equals sign writes. -/
def assignment? (word : Bytes) : Option (Bytes × Bytes) :=
  if word.contains 61 then
    some (word.takeWhile (· ≠ 61), (word.dropWhile (· ≠ 61)).drop 1)
  else none

/-- Makes the assignments in front of a command, and gives the command. -/
def assignAhead (environment : Environment) : List Bytes → Environment × List Bytes
  | [] => (environment, [])
  | word :: rest =>
    match assignment? word with
    | some (name, value) => assignAhead (setVariable environment name value) rest
    | none => (environment, word :: rest)

/-- Writes the values of variables. -/
def printenv (r : Request) : Prog Nat := do
  let mark := if r.has '0' then nul else newline
  match r.operands with
  | [] =>
    say (endLines mark (r.environment.map binding))
    return 0
  | names =>
    let value? (name : Bytes) : Option Bytes :=
      if name.contains 61 then none else r.environment.lookup name
    say (endLines mark (names.filterMap value?))
    return codeOf (names.all fun name => (value? name).isSome)

end JobShell.Programs
