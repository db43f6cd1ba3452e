/-
**What the commands of a script have in common.**

Main definitions:

* `JobShell.Script.withCommand`, `JobShell.Script.complain`, `JobShell.Script.failIn` — complaints of
  a command;
* `JobShell.Script.readOptions` — the options of a command;
* `JobShell.Script.singleQuoted` — a text as a script can read it back.
-/

import JobShell.Script.Expand

set_option autoImplicit false

namespace JobShell.Script

/-- Runs something whose leaving is caught. -/
def attempt {α : Type} (body : Eval α) : Eval (Except Leave α) :=
  ExceptT.mk fun s => do
    let (result, s) ← body.run s
    return (.ok result, s)

/-- Leaves, if something has been left. -/
def release {α : Type} : Except Leave α → Eval α
  | .ok a => return a
  | .error way => throw way

/-- Runs something on behalf of a command that complaints name. -/
def withCommand {α : Type} (name : Bytes) (body : Eval α) : Eval α := do
  let before := (← get).command
  modify fun s => { s with command := name }
  let result ← attempt body
  modify fun s => { s with command := before }
  release result

/-- Complains about a command. -/
def complain (name text : Bytes) : Eval Unit := withCommand name (warn text)

/-- Complains about a command that makes no sense. -/
def failIn {α : Type} (name text : Bytes) : Eval α := do
  complain name text
  setStatus 2
  throw .fails

/-- Reads the words of a command that has options of the given letters. -/
def readOptions (name : Bytes) (letters : String) (words : List Bytes) :
    Eval (Programs.Request) := do
  match Programs.readWords { letters := Programs.optionLetters letters.toList } true words with
  | .ok (given, operands) => return { name := name, options := given, operands := operands }
  | .error (.unknown c) => failIn name (utf8 "Illegal option -" ++ [c])
  | .error (.withoutArgument c) => failIn name (utf8 "No arg for -" ++ [c] ++ utf8 " option")
  | .error _ => failIn name (utf8 "Illegal option --")

/-- A text in the quotation marks of a script: its runs of single marks in double ones, and the rest
in single ones, which also come first. -/
def singleQuoted (text : Bytes) : Bytes :=
  let runs := text.splitBy fun a b => (a == 39) == (b == 39)
  (if text.head?.getD 39 = 39 then [39, 39] else [])
    ++ runs.flatMap fun run =>
      let mark : UInt8 := if run.head? = some 39 then 34 else 39
      mark :: run ++ [mark]

/-- A number that an argument must be. -/
def demandNumber (name argument : Bytes) : Eval Nat := do
  match number? argument with
  | some n => return n
  | none => failIn name (utf8 "Illegal number: " ++ argument)

/-- Writes to the output on behalf of a command. -/
def say (name text : Bytes) : Eval Unit := do
  let ok ← perform (Programs.emit 1 text)
  if ok = false then complain name (name ++ utf8 ": I/O error")
  setStatus (Programs.codeOf ok)

end JobShell.Script
