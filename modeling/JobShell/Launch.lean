/-
**From the fork to the program.**

A newly forked child puts its signals, its descriptors and its redirections in order and then runs
its program.  Whatever fails on the way ends the child with one diagnostic.

Main definitions:

* `JobShell.LaunchError` — what can fail, and how it is worded;
* `JobShell.Command.nulPosition?` — the byte that no program can be given;
* `JobShell.Prog.execSearching` — running a program that is searched for by its name;
* `JobShell.Assignment.launch` — the steps of the child, which return only on failure;
* `JobShell.Assignment.run` — the child as a whole.
-/

import JobShell.Host
import JobShell.Machine.Program
import JobShell.Text.Utf8

set_option autoImplicit false

namespace JobShell

/-- Why a child cannot run its program. -/
inductive LaunchError where
  /-- A redirection cannot be opened. -/
  | opening (name : Bytes) (errno : Errno)
  /-- The program cannot be executed. -/
  | executing (name : Bytes) (errno : Errno)
  /-- A descriptor cannot be moved or closed, or there can be no new session. -/
  | descriptor (call : SystemCall) (errno : Errno)
  /-- The signals cannot be put in order. -/
  | signals (errno : Errno)
  /-- A word or a target holds a NUL byte at a position. -/
  | nul (position : Nat)
  deriving DecidableEq, Repr, Inhabited

namespace LaunchError

/-- Why a redirection cannot be opened, in words. -/
def openReason (e : Errno) : String :=
  if e = Errno.noEntry then "no such file or directory"
  else if e = Errno.accessDenied then "permission denied"
  else if e = Errno.isDirectory then "is a directory"
  else e.description

/-- Why a program cannot be executed, in words. -/
def execReason (e : Errno) : String :=
  if e = Errno.noEntry then "no such file or directory"
  else if e = Errno.accessDenied then "permission denied"
  else "exec error"

/-- The wording of a launch error. -/
def message : LaunchError → String
  | .opening name errno => Utf8.decodeLossy name ++ ": " ++ openReason errno
  | .executing name errno => Utf8.decodeLossy name ++ ": " ++ execReason errno
  | .descriptor call errno => call.name ++ "() failed: " ++ errno.text
  | .signals errno => "signal setup failed: " ++ errno.text
  | .nul position => "nul byte found in provided data at position: " ++ Nat.repr position

end LaunchError

/-- The strings that a command hands to the system, in the order in which they are prepared. -/
def Command.strings (c : Command) : List Bytes := c.words ++ c.redirections.map (·.target)

/-- The position of the first NUL byte in the first string that holds one. -/
def Command.nulPosition? (c : Command) : Option Nat :=
  c.strings.findSome? fun s => s.findIdx? (· = nul)

/-- A command that can be handed to the system. -/
def Command.prepare (c : Command) : Except LaunchError Command :=
  match c.nulPosition? with
  | some position => .error (.nul position)
  | none => .ok c

/-- The exit status of a child that did not get as far as running its program. -/
def launchFailure : Nat := 127

/-! ### Running a program -/

namespace Prog

/-- The shell to which a file is handed that is executable but in no known format. -/
def scriptShell : Bytes := utf8 "/bin/sh"

/-- Runs the file of a path as a program; as a script if it is in no known format. -/
def execFile (path : Bytes) (words : List Bytes) (environment : Environment) : Prog Errno := do
  let errno : Errno ← ask (.exec path words environment)
  if errno = Errno.noExecFormat then
    ask (.exec scriptShell (scriptShell :: path :: words.drop 1) environment)
  else return errno

/-- Whether the search for a program goes on after an error. -/
def keepsSearching (e : Errno) : Bool :=
  e = Errno.accessDenied || e = Errno.noEntry || e = Errno.notDirectory

/-- Tries a program in each directory of a search path.  At the end a file that must not be run
counts for more than one that is not there. -/
def searchIn (name : Bytes) (words : List Bytes) (environment : Environment) (denied : Bool) :
    List Bytes → Prog Errno
  | [] => return if denied then Errno.accessDenied else Errno.noEntry
  | directory :: rest => do
    let path := if directory = [] then name else directory ++ slash :: name
    let errno ← execFile path words environment
    if keepsSearching errno then
      searchIn name words environment (denied || errno = Errno.accessDenied) rest
    else return errno

/-- The byte between the directories of a search path. -/
def colon : UInt8 := 58

/-- The directories in which programs are searched for. -/
def searchPath (environment : Environment) : List Bytes :=
  Bytes.splitAt colon ((environment.lookup (utf8 "PATH")).getD (utf8 "/bin:/usr/bin"))

/-- Runs a program by its name: the file of that path if the name has a slash, else the first such
file in the given directories. -/
def execFrom (directories : List Bytes) (name : Bytes) (words : List Bytes)
    (environment : Environment) : Prog Errno :=
  if name = [] then return Errno.noEntry
  else if slash ∈ name then execFile name words environment
  else if FileSystem.maxName < name.length then return Errno.nameTooLong
  else searchIn name words environment false directories

/-- Runs a program by its name, searched for on the search path. -/
def execSearching (name : Bytes) (words : List Bytes) (environment : Environment) : Prog Errno :=
  execFrom (searchPath environment) name words environment

end Prog

/-! ### The steps of a child -/

/-- Steps that end with the first launch error. -/
abbrev Launching := ExceptT LaunchError Prog

namespace Launching

/-- A call whose failure is a launch error. -/
def demand {α : Type} (reply : Prog (Except Errno α)) (cause : Errno → LaunchError) :
    Launching α :=
  ExceptT.mk do
    match ← reply with
    | .ok a => return .ok a
    | .error errno => return .error (cause errno)

/-- Closes a descriptor. -/
def close (fd : Nat) : Launching Unit :=
  demand (Prog.ask (.close fd)) (.descriptor .close)

/-- Gives the open file of a descriptor another number. -/
def move (old new : Nat) : Launching Unit :=
  if old = new then return ()
  else do
    demand (Prog.ask (.dup2 old new)) (.descriptor .dup2)
    close old

/-- How the file of a redirection is opened. -/
def openMode : Direction → OpenMode
  | .input => { read := true }
  | .output => { write := true, create := true, truncate := true }
  | .append => { write := true, create := true, append := true }

/-- The descriptor that a redirection replaces. -/
def standard : Direction → Nat
  | .input => 0
  | .output | .append => 1

/-- The permissions of a file that a redirection makes. -/
def fileMode : Nat := 0o644

/-- Opens the file of a redirection and puts it in place of the standard stream. -/
def redirect (r : Redirection) : Launching Unit := do
  let fd ← demand (Prog.ask (.openPath r.target (openMode r.direction) fileMode))
    (.opening r.target)
  move fd (standard r.direction)

/-- Opens the files of redirections in order. -/
def redirectAll : List Redirection → Launching Unit
  | [] => return ()
  | r :: rest => do
    redirect r
    redirectAll rest

/-- Gives a signal its disposition. -/
def dispose (signal : Nat) (disposition : Disposition) : Launching Unit :=
  demand (Prog.ask (.dispose signal disposition)) .signals

/-- Gives the signals the dispositions that programs expect. -/
def restoreSignals : Launching Unit := do
  dispose Signal.interrupt .default
  dispose Signal.child .default
  dispose Signal.pipe .default
  demand (Prog.ask .unblockChild) .signals

end Launching

namespace Assignment

open Launching

/-- Connects the descriptors 0 and 1 as the place in the pipeline wants it. -/
def connect (a : Assignment) : Launching Unit := do
  move a.input 0
  match a.pipe with
  | some (reader, writer) => do
    move writer 1
    Launching.close reader
  | none => return ()

/-- Everything up to running the program. -/
def arrange (a : Assignment) : Launching Command := do
  if a.jobClass = .background then demand (Prog.ask .setsid) (.descriptor .setsid)
  restoreSignals
  a.connect
  let command ← ExceptT.mk (return a.command.prepare)
  redirectAll command.redirections
  return command

/-- All steps of the child.  They return only on failure. -/
def launch (a : Assignment) (environment : Environment) : Prog LaunchError := do
  match ← a.arrange.run with
  | .error e => return e
  | .ok command =>
    return .executing command.name
      (← Prog.execSearching command.name command.words environment)

/-- The child as a whole: if it cannot run its program it says why and ends. -/
def run (a : Assignment) (environment : Environment) : Prog Nat := do
  let e ← a.launch environment
  let _ ← Prog.writeAll 2 (utf8 (e.message ++ "\n"))
  return launchFailure

end Assignment

end JobShell
