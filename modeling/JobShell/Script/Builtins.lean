/-
**The commands that a script runs itself.**

These are the commands that neither run another command nor read another script; those that do are
in `JobShell.Script.Run`.

Main definitions:

* `JobShell.Script.echo`, `JobShell.Script.printf`, `JobShell.Script.test`, `JobShell.Script.cd` —
  output, conditions and the working directory;
* `JobShell.Script.builtin?` — the command of a name;
* `JobShell.Script.isSpecial` — the commands whose failures end the script.
-/

import JobShell.Programs.Format
import JobShell.Script.Condition
import JobShell.Script.Control
import JobShell.Script.Variables

set_option autoImplicit false

namespace JobShell.Script

/-! ### Output -/

/-- The escapes of the command `echo`. -/
def echoEscapes : Escapes := { zero := true, bare := true, cuts := true }

/-- Writes its arguments, with escapes replaced. -/
def echo (name : Bytes) (arguments : List Bytes) : Eval Unit := do
  let (ending, rest) := match arguments with
    | [45, 110] :: rest => (false, rest)
    | rest => (true, rest)
  let (text, cut) := unescape echoEscapes (Bytes.join 32 rest)
  say name (text ++ if ending ∧ cut.isNone then [newline] else [])

/-- The style of the command `printf`. -/
def printfStyle : Programs.FormatStyle :=
  { format := { bare := true }
    argument := echoEscapes
    kept := .double
    strict := false }

/-- The wording of a problem with an argument. -/
def numberProblem : Programs.NumberProblem → Bytes
  | .notNumber argument => argument ++ utf8 ": expected numeric value"
  | .notConverted argument => argument ++ utf8 ": not completely converted"
  | .outOfRange argument => argument ++ utf8 ": Numerical result out of range"
  | .ignored _ => []

/-- Writes arguments in a format.  The output is written after all complaints. -/
def printf (name : Bytes) (arguments : List Bytes) : Eval Unit := do
  match (← readOptions name "" arguments).operands with
  | [] => failIn name (utf8 "usage: printf format [arg ...]")
  | form :: arguments =>
    let f := Programs.formatted printfStyle form arguments
    for p in f.problems do complain name (numberProblem p)
    let fail (text : Bytes) : Eval Unit := do
      complain name text
      say name f.textOf
      setStatus 2
      throw .fails
    match f.ending with
    | some (.invalid conversion) => fail (conversion ++ utf8 ": invalid directive")
    | some .missing => fail (utf8 "missing format character")
    | _ =>
      say name f.textOf
      if f.problems ≠ [] then setStatus 1

/-! ### Conditions -/

/-- Sets the status to whether a condition holds. -/
def test (name : Bytes) (arguments : List Bytes) : Eval Unit := do
  match ← perform (Test.check name arguments) with
  | .ok value => setStatus (Programs.codeOf value)
  | .error mistake => failIn name mistake.message

/-! ### Directories -/

/-- A path without its dots, from a directory.  Two slashes at its front are kept, but not three. -/
def normalize (directory path : Bytes) : Bytes :=
  let isAbsolute := FileSystem.isAbsolute path
  let all := (if isAbsolute then [] else FileSystem.parts directory) ++ FileSystem.parts path
  let slashes := ((if isAbsolute then path else directory).takeWhile (· = slash)).length
  let kept := all.foldl (fun (kept : List Bytes) part =>
    if part = FileSystem.dot then kept
    else if part = FileSystem.dotDot then kept.drop 1
    else part :: kept) []
  List.replicate (if slashes = 2 then 2 else 1) slash ++ Bytes.join slash kept.reverse

/-- Whether physical paths are asked for: the last of the options counts. -/
def asksPhysical (r : Programs.Request) : Bool := r.letters.getLast? = some 'P'

/-- Whether a path is searched for in no other directories: it begins with a slash, or with dots
as a part of their own. -/
def isFixed (path : Bytes) : Bool :=
  let first := path.takeWhile (· ≠ slash)
  (first = [] && path ≠ []) || first = FileSystem.dot || first = FileSystem.dotDot

/-- The directories in which the command `cd` searches. -/
def searchedDirectories (s : State) : List Bytes :=
  match s.valueOf? (utf8 "CDPATH") with
  | some text => Bytes.splitAt Prog.colon text
  | none => [[]]

/-- The path that the command `cd` means, and whether it was found elsewhere. -/
def findDirectory (target : Bytes) : List Bytes → Eval (Bytes × Bool)
  | [] => return (target, false)
  | directory :: rest => do
    let path := if directory = [] then target else directory ++ slash :: target
    match ← ask (.status path true) with
    | .ok { content := .directory _ _, .. } => return (path, directory ≠ [])
    | _ => findDirectory target rest

/-- Enters a directory; says whether that worked. -/
def enterDirectory (physical : Bool) (path : Bytes) : Eval Bool := do
  let s ← get
  let logical := normalize s.directory path
  match ← ask (.changeDirectory (if physical then path else logical)) with
  | .error _ => return false
  | .ok () =>
    let place ← if physical then (·.toOption.getD path) <$> ask .workingDirectory
      else pure logical
    modify fun s =>
      { (s.assign (utf8 "OLDPWD") s.directory).assign (utf8 "PWD") place with
        directory := place
        exported := utf8 "OLDPWD" :: utf8 "PWD" :: s.exported }
    return true

/-- Makes another directory the working directory. -/
def cd (name : Bytes) (words : List Bytes) : Eval Unit := do
  let r ← readOptions name "LP" words
  let s ← get
  let (target, back) := match r.operands with
    | [] => ((s.valueOf? (utf8 "HOME")).getD [], false)
    | [45] :: _ => ((s.valueOf? (utf8 "OLDPWD")).getD [], true)
    | target :: _ => (target, false)
  let (path, elsewhere) ←
    if isFixed target then pure (target, false)
    else findDirectory (if target = [] then FileSystem.dot else target) (searchedDirectories s)
  if ← enterDirectory (asksPhysical r) path then
    if back ∨ elsewhere then say name ((← get).directory ++ [newline]) else setStatus 0
  else failIn name (utf8 "can't cd to " ++ target)

/-- Writes the working directory. -/
def pwd (name : Bytes) (words : List Bytes) : Eval Unit := do
  let r ← readOptions name "LP" words
  let place ← if asksPhysical r then (·.toOption.getD []) <$> ask .workingDirectory
    else (·.directory) <$> get
  say name (place ++ [newline])

/-! ### Limits and times -/

/-- Writes the times that the script and its children have used. -/
def times (name : Bytes) : Eval Unit := 
  let line := "0m0.000000s 0m0.000000s\n"
  say name (utf8 (line ++ line))

/-- Writes a limit; there is none. -/
def ulimit (name : Bytes) (words : List Bytes) : Eval Unit := do
  let _ ← readOptions name "HSatfdsmcnpvlwr" words
  say name (utf8 "unlimited\n")

/-! ### Leaving -/

/-- Leaves the script with a status; if none is given it is that of the last command, or the one
with which a trap has begun. -/
def exit (name : Bytes) (arguments : List Bytes) : Eval Unit := do
  match arguments with
  | [] =>
    if let some status := (← get).left then setStatus status
  | status :: _ => setStatus ((← demandNumber name status) % 256)
  throw .exits

/-- Leaves a function, or a script that is run as part of another one, with a status. -/
def return' (name : Bytes) (arguments : List Bytes) : Eval Unit := do
  match arguments with
  | [] => pure ()
  | status :: _ => setStatus (← demandNumber name status)
  throw .returns

/-- Leaves loops. -/
def leaveLoops (name : Bytes) (way : Nat → Leave) (arguments : List Bytes) : Eval Unit := do
  let loops ← match arguments with
    | [] => pure 1
    | loops :: _ => do
      let n ← demandNumber name loops
      if n = 0 then failIn name (utf8 "Illegal number: " ++ loops)
      pure n
  setStatus 0
  let around := (← get).loops
  if 0 < around then throw (way (min loops around))

/-! ### By name -/

/-- Whether failures of a command end the script, and its assignments stay. -/
def isSpecial (name : Bytes) : Bool := specialNames.contains name

/-- Whether the arguments of a command that look like assignments are kept in one piece. -/
def isDeclaration (name : Bytes) : Bool :=
  (["export", "local", "readonly"].map utf8).contains name

/-- The command of a name, given its arguments. -/
def builtin? (name : Bytes) : Option (List Bytes → Eval Unit) :=
  match Utf8.decodeLossy name with
  | ":" | "true" => some fun _ => setStatus 0
  | "false" => some fun _ => setStatus 1
  | "echo" => some (echo name)
  | "printf" => some (printf name)
  | "test" | "[" => some (test name)
  | "cd" | "chdir" => some (cd name)
  | "pwd" => some (pwd name)
  | "export" => some (declare .exported name)
  | "readonly" => some (declare .fixed name)
  | "local" => some (declareLocal name)
  | "unset" => some (unset name)
  | "set" => some (set' name)
  | "shift" => some (shift name)
  | "read" => some (read name)
  | "kill" => some (kill name)
  | "trap" => some (trap name)
  | "umask" => some (umask name)
  | "wait" => some (wait name)
  | "jobs" => some (listJobs name)
  | "fg" | "bg" => some (control name)
  | "getopts" => some (getopts name)
  | "alias" => some (makeAliases name)
  | "unalias" => some (forgetAliases name)
  | "times" => some fun _ => times name
  | "ulimit" => some (ulimit name)
  | "exit" => some (exit name)
  | "return" => some (return' name)
  | "break" => some (leaveLoops name .breaks)
  | "continue" => some (leaveLoops name .continues)
  | _ => none

/-- Whether a name is that of a command that the script runs itself. -/
def isBuiltin (name : Bytes) : Bool :=
  (builtin? name).isSome || (["eval", ".", "exec", "command", "hash", "type"].map utf8).contains name

end JobShell.Script
