/-
**Builtin commands: names, arguments and errors.**

Four commands can run in the shell itself.  This module says what they are called, how their
arguments are read, and how their errors are worded; what they do is in `JobShell.Shell`.

Main definitions:

* `JobShell.Builtin`, `JobShell.Builtin.named?` — the four commands and their names;
* `JobShell.Pipeline.builtin?` — the pipelines that run in the shell itself;
* `JobShell.BuiltinError` — why a builtin fails;
* `JobShell.exitArgument`, `JobShell.killArguments` — their arguments.
-/

import JobShell.Errno
import JobShell.Line.Basic
import JobShell.Number
import JobShell.Signal

set_option autoImplicit false

namespace JobShell

/-- The commands that can run in the shell itself. -/
inductive Builtin where
  | exit
  | cd
  | pwd
  | kill
  deriving DecidableEq, Repr, Inhabited

/-- The builtin of a name. -/
def Builtin.named? (name : Bytes) : Option Builtin :=
  if name = utf8 "exit" then some .exit
  else if name = utf8 "cd" then some .cd
  else if name = utf8 "pwd" then some .pwd
  else if name = utf8 "kill" then some .kill
  else none

/-- The command that runs in the shell itself: the only command of a foreground pipeline, without
redirections, with the name of a builtin. -/
def Pipeline.builtin? (p : Pipeline) : Option (Builtin × Command) :=
  match p.commands with
  | [command] =>
    if command.redirections = [] ∧ p.background = false then
      (Builtin.named? command.name).map fun b => (b, command)
    else none
  | _ => none

/-- Why a builtin fails. -/
inductive BuiltinError where
  /-- The number of arguments, or their form, is wrong. -/
  | usage (form : String)
  /-- An argument is not a number. -/
  | number (argument : Bytes)
  /-- There is no home directory. -/
  | noHome
  /-- A directory cannot be entered or found. -/
  | file (errno : Errno)
  /-- A path holds a NUL byte. -/
  | nulInPath
  /-- A signal cannot be sent. -/
  | call (errno : Errno)
  deriving DecidableEq, Repr, Inhabited

/-- The wording of a builtin's error. -/
def BuiltinError.message : BuiltinError → String
  | .usage form => "usage: " ++ form
  | .number argument => "invalid number: " ++ Utf8.decodeLossy argument
  | .noHome => "HOME is not set"
  | .file errno => errno.fileText
  | .nulInPath => "file name contained an unexpected NUL byte"
  | .call errno => errno.text

/-- Reads an argument as a number. -/
def numberArgument (argument : Bytes) : Except BuiltinError Int :=
  match int32? argument with
  | some n => .ok n
  | none => .error (.number argument)

/-- The status that the arguments of `exit` ask for. -/
def exitArgument : List Bytes → Except BuiltinError Int
  | [] => .ok 0
  | [status] => numberArgument status
  | _ => .error (.usage "exit [status]")

/-- Reads a number as a signal with a name. -/
def signalArgument (n : Int) : Except BuiltinError Nat :=
  if 1 ≤ n ∧ n ≤ 31 then .ok n.toNat else .error (.call Errno.invalid)

/-- How `kill` is used. -/
def killUsage : BuiltinError := .usage "kill [-signum] pid"

/-- The signal and the process that the arguments of `kill` name. -/
def killArguments : List Bytes → Except BuiltinError (Nat × Int)
  | [pid] => do
    let pid ← numberArgument pid
    return (Signal.terminate, pid)
  | [option, pid] =>
    match option with
    | [] => .error killUsage
    | c :: digits =>
      if c = 45 then do
        let n ← numberArgument digits
        let signal ← signalArgument n
        let pid ← numberArgument pid
        return (signal, pid)
      else .error killUsage
  | _ => .error killUsage

end JobShell
