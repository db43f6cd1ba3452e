/-
**The command line.**

The arguments and the environment say whether to help, to run one line, or to read lines from the
input until it ends or the shell is asked to exit.

Main definitions:

* `JobShell.CommandLine.helpText`, `JobShell.CommandLine.versionText` — the two answers;
* `JobShell.Shell.readInput` — the next line of the input, of which nothing more is taken;
* `JobShell.Shell.readLines` — reading and running lines;
* `JobShell.CommandLine.openReader` — the descriptor from which they are read;
* `JobShell.CommandLine.run`, `JobShell.CommandLine.runBytes` — a run of the shell, and how it
  ends.
-/

import JobShell.Input.LineReader
import JobShell.Settings
import JobShell.Shell

set_option autoImplicit false

namespace JobShell

namespace CommandLine

/-- The name of the program in its messages. -/
def programName : String := "pipesh"

/-- What is written when help is asked for. -/
def helpText : String :=
  String.join
    (["pipesh - a small job-control shell",
      "",
      "Usage:",
      "  pipesh              Read commands from stdin",
      "  pipesh -i           Force interactive mode",
      "  pipesh -c <line>    Execute one line and exit",
      "",
      "Environment:",
      "  PIPESH_PROMPT       Prompt string (default \"pipesh> \")",
      "  PIPESH_MAX_LINE     Longest accepted line in bytes (default 2048)",
      "  PIPESH_LOG          Log filter, e.g. \"debug\" (default \"warn\")"].map fun line =>
        line ++ "\n")

/-- What is written when the version is asked for. -/
def versionText : String := programName ++ " 0.1.0\n"

/-- What is written when the shell cannot go on. -/
def fatalText (reason : String) : String := programName ++ ": " ++ reason ++ "\n"

/-- A failed call as the reason why the shell cannot go on: what failed, and then why. -/
def fatalReason (e : ResourceError) : String := e.message ++ ": " ++ e.errno.text

/-- How a run ends. -/
inductive RunEnd where
  | exited (status : Nat)
  | killed (signal : Nat)
  /-- It waits for what will never happen. -/
  | stuck
  deriving DecidableEq, Repr, Inhabited

/-- The exit status of a requested status: eight bits of it. -/
def exitStatus (requested : Int) : Nat := (requested % 256).toNat

/-- The status of a run that cannot go on. -/
def fatalStatus : Nat := 1

/-- The status of a run in which an assertion does not hold. -/
def assertionStatus : Nat := 101

end CommandLine

namespace Shell

variable {σ : Type}

/-- The next line of an open file.  Not a byte after its newline is taken. -/
def readInput [Host σ] (file : OpenFile) (limit : Nat) : ShellM σ (Except InputError Input) := do
  supervise fun held => Supervisor.drift held
  let s ← get
  let feed : Feed :=
    { source := { chunks := [.data (Host.unread file s.host)] }, capacity := 1 }
  let (result, feed) := feed.nextLine limit
  set ({ s with host := Host.take file feed.source.taken s.host } : Shell σ)
  return result

/-- Collects the jobs that have ended, and writes a report and the prompt if anybody is there. -/
def greet [Host σ] (interactive : Bool) (prompt : String) : ShellM σ Unit := do
  let jobs ← report
  if interactive then
    say 1 (reportText jobs)
    say 1 (utf8 prompt)

/-- Reads and runs lines, at most so many; gives the status to exit with. -/
def readLines [Host σ] (settings : Settings) (file : OpenFile) : Nat → ShellM σ Int
  | 0 => return 0
  | n + 1 => do
    greet (settings.interactive.getD false) settings.prompt
    match ← readInput file settings.maxLine with
    | .error _ => throw .assertionFailed
    | .ok .endOfInput => return 0
    | .ok .malformed => say 2 syntaxError
    | .ok (.line text) => runLine text
    match (← get).exitRequested with
    | some status => return status
    | none => readLines settings file n

/-- Runs the one line of the settings, or lines from the input; gives the status to exit with. -/
def serve [Host σ] (settings : Settings) : ShellM σ Int := do
  match settings.command with
  | some line =>
    runLine (utf8 line)
    return (← get).exitRequested.getD 0
  | none =>
    let s ← get
    match s.descriptors.file? 0 with
    | none => return 0
    | some file => readLines settings file ((Host.unread file s.host).length + 1)

end Shell

namespace CommandLine

variable {σ : Type}

/-- Writes to a descriptor of a shell. -/
def write [Host σ] (fd : Nat) (text : String) (s : Shell σ) : Shell σ :=
  ((Shell.say fd (utf8 text)).run s).2

/-- Runs the shell with settings. -/
def runWith [Host σ] (settings : Settings) (s : Shell σ) : RunEnd × Shell σ :=
  match (Shell.serve settings).run s with
  | (.ok status, s) => (.exited (exitStatus status), s)
  | (.error (.failed e), s) => (.exited fatalStatus, write 2 (fatalText (fatalReason e)) s)
  | (.error .assertionFailed, s) => (.exited assertionStatus, s)
  | (.error (.lost (.killed signal)), s) => (.killed signal, s)
  | (.error (.lost .stuck), s) => (.stuck, s)

/-- The least number that the descriptor may get from which lines are read. -/
def readerStart : Nat := 3

/-- Why the input cannot be read. -/
def noReaderReason : String := "opening stdin: " ++ Errno.tooManyFiles.fileText

/-- Opens the descriptor from which lines are read, if any are: one more for the standard input,
which no program gets to see. -/
def openReader (settings : Settings) (s : Shell σ) : Option (Shell σ) :=
  match settings.command, s.descriptors.file? 0 with
  | none, some file =>
    (s.descriptors.reserve? file readerStart).map fun d => { s with descriptors := d }
  | _, _ => some s

/-- A run with arguments and an environment. -/
def run [Host σ] (arguments : List String) (env : String → Option String) (s : Shell σ) :
    RunEnd × Shell σ :=
  match Settings.load arguments env with
  | .error e => (.exited fatalStatus, write 2 (fatalText e.message) s)
  | .ok .help => (.exited 0, write 1 helpText s)
  | .ok .version => (.exited 0, write 1 versionText s)
  | .ok (.run settings) =>
    match openReader settings s with
    | some s => runWith settings s
    | none => (.exited fatalStatus, write 2 (fatalText noReaderReason) s)

/-- A run with arguments and an environment as the system gives them.  Arguments must be texts; a
variable that is none counts as unset. -/
def runBytes [Host σ] (arguments : List Bytes) (environment : List (Bytes × Bytes))
    (s : Shell σ) : RunEnd × Shell σ :=
  match arguments.mapM Utf8.decode? with
  | none => (.exited assertionStatus, s)
  | some arguments =>
    run arguments (fun name => (environment.lookup (utf8 name)).bind Utf8.decode?) s

end CommandLine

end JobShell
