/-
**The shell process.**

The shell is a supervisor of children together with its descriptors, its working directory and the
status with which it has been asked to exit.  It runs a pipeline either itself, if the pipeline is
a builtin alone, or by one child for each command.

Main definitions:

* `JobShell.Shell`, `JobShell.ShellM` — the process, and computations on it that may stop early;
* `JobShell.Shell.duplicate`, `JobShell.Shell.makePipe`, `JobShell.Shell.close` — its descriptors;
* `JobShell.Shell.releasing` — closing descriptors when a computation stops early;
* `JobShell.Shell.runBuiltin` — what the builtins do;
* `JobShell.Shell.spawnStages`, `JobShell.Shell.runPipeline` — running a pipeline;
* `JobShell.Shell.execute`, `JobShell.Shell.runLine` — running a line;
* `JobShell.Shell.report` — the children that ended in the background.
-/

import JobShell.Builtin
import JobShell.Job.Supervision
import JobShell.Line.Parse
import JobShell.Line.Runnable

set_option autoImplicit false

namespace JobShell

/-- The shell's own process. -/
structure Shell (σ : Type) extends Supervisor σ where
  descriptors : Descriptors
  /-- The working directory. -/
  place : Nat
  /-- The home directory. -/
  home : Option Bytes
  /-- The status with which the shell has been asked to exit. -/
  exitRequested : Option Int := none

/-- Computations on a shell.  What they have done stays done when they stop early. -/
abbrev ShellM (σ : Type) := ExceptT Stop (StateM (Shell σ))

namespace Shell

variable {σ : Type}

/-- Runs a computation on the supervisor, which sees the descriptors of the shell. -/
def supervise {α : Type} (body : Descriptors → Supervised σ α) : ShellM σ α :=
  ExceptT.mk fun s =>
    let (result, supervisor) := (body s.descriptors).run s.toSupervisor
    (result, { s with toSupervisor := supervisor })

/-- Stops because a call failed. -/
def fail {α : Type} (call : SystemCall) (errno : Errno) : ShellM σ α :=
  throw (.failed ⟨call, errno⟩)

/-- Replaces the descriptors. -/
def setDescriptors (d : Descriptors) : ShellM σ Unit :=
  modify fun s => { s with descriptors := d }

/-- Writes to a descriptor.  A descriptor that is closed takes nothing, and nobody minds. -/
def say [Host σ] (fd : Nat) (text : Bytes) : ShellM σ Unit :=
  modify fun s =>
    match s.descriptors.file? fd with
    | some file => { s with host := Host.write file text s.host }
    | none => s

/-- Makes a second descriptor for an open file. -/
def duplicate [Host σ] (fd : Nat) : ShellM σ Nat := do
  supervise fun held => Supervisor.enterCall held .dup
  let d := (← get).descriptors
  match d.file? fd with
  | none => fail .dup Errno.badDescriptor
  | some file =>
    match d.allocate? file 0 with
    | none => fail .dup Errno.tooManyFiles
    | some (new, d) =>
      setDescriptors d
      return new

/-- Makes a pipe: the descriptor that reads it and the one that writes it. -/
def makePipe [Host σ] : ShellM σ (Nat × Nat) := do
  supervise fun held => Supervisor.enterCall held .pipe
  let s ← get
  if s.descriptors.room < 2 then fail .pipe Errno.tooManyFiles
  let (pipe, host) := Host.newPipe s.host
  let reader := s.descriptors.leastFree 0
  let d := s.descriptors.assign reader (.pipeReader pipe)
  let writer := d.leastFree 0
  set ({ s with host := host, descriptors := d.assign writer (.pipeWriter pipe) } : Shell σ)
  return (reader, writer)

/-- Closes a descriptor. -/
def close (fd : Nat) : ShellM σ Unit := do
  let d := (← get).descriptors
  if d.isOpen fd then setDescriptors (d.close fd) else fail .close Errno.badDescriptor

/-- Runs a computation, and closes the descriptors if it stops early. -/
def releasing {α : Type} (fds : List Nat) (body : ShellM σ α) : ShellM σ α :=
  ExceptT.mk fun s =>
    match body.run s with
    | (.ok a, s) => (.ok a, s)
    | (.error stop, s) =>
      (.error stop, { s with descriptors := fds.foldl Descriptors.close s.descriptors })

/-- Runs a computation and puts the signal mask back afterwards, however it ends. -/
def restoring {α : Type} (previous : Bool) (body : ShellM σ α) : ShellM σ α :=
  ExceptT.mk fun s =>
    let (result, s) := body.run s
    (result, { s with signal := s.signal.restore previous })

/-! ### Builtin commands -/

/-- A signal that the shell sends to itself.  Interrupts and broken pipes are ignored, a child's
signal raises the flag, and any other does what it does to every process. -/
def receive (signal : Nat) : ShellM σ Unit := do
  if signal = Signal.interrupt ∨ signal = Signal.pipe then return ()
  else if signal = Signal.child then modify fun s => { s with signal := s.signal.raise }
  else
    match Signal.default signal with
    | .ends => throw (.lost (.killed signal))
    | .stops => throw (.lost .stuck)
    | .continues | .nothing => return ()

/-- The directory that the arguments of `cd` name. -/
def cdArgument (s : Shell σ) : List Bytes → Except BuiltinError Bytes
  | [] => match s.home with
    | some home => .ok home
    | none => .error .noHome
  | [target] => .ok target
  | _ => .error (.usage "cd [dir]")

/-- Makes another directory the working directory. -/
def changeDirectory [Host σ] (arguments : List Bytes) : ShellM σ (Except BuiltinError Unit) := do
  let s ← get
  match s.cdArgument arguments with
  | .error e => return .error e
  | .ok target =>
    if nul ∈ target then return .error .nulInPath
    match Host.enter s.place target s.host with
    | .error errno => return .error (.file errno)
    | .ok place =>
      set { s with place := place }
      return .ok ()

/-- Writes the path of the working directory. -/
def printDirectory [Host σ] (arguments : List Bytes) : ShellM σ (Except BuiltinError Unit) := do
  if arguments ≠ [] then return .error (.usage "pwd")
  let s ← get
  match Host.pathOf s.place s.host with
  | .error errno => return .error (.file errno)
  | .ok path =>
    say 1 (path ++ [newline])
    return .ok ()

/-- Sends a signal. -/
def sendSignal [Host σ] (arguments : List Bytes) : ShellM σ (Except BuiltinError Unit) := do
  match killArguments arguments with
  | .error e => return .error e
  | .ok (signal, pid) =>
    let s ← get
    match Host.kill pid signal s.host with
    | .error errno => return .error (.call errno)
    | .ok (self, host) =>
      set { s with host := host }
      if self then receive signal
      return .ok ()

/-- Notes the status to exit with. -/
def requestExit (arguments : List Bytes) : ShellM σ (Except BuiltinError Unit) := do
  match exitArgument arguments with
  | .error e => return .error e
  | .ok status =>
    modify fun s => { s with exitRequested := some status }
    return .ok ()

/-- What a builtin does with its arguments. -/
def callBuiltin [Host σ] : Builtin → List Bytes → ShellM σ (Except BuiltinError Unit)
  | .exit, arguments => requestExit arguments
  | .cd, arguments => changeDirectory arguments
  | .pwd, arguments => printDirectory arguments
  | .kill, arguments => sendSignal arguments

/-- Runs a builtin command; an error is reported and otherwise without consequence. -/
def runBuiltin [Host σ] (b : Builtin) (command : Command) : ShellM σ Unit := do
  supervise fun _ => Supervisor.note (.builtin command.name)
  match ← callBuiltin b command.arguments with
  | .ok () => return ()
  | .error e =>
    say 2 (utf8 ("Builtin " ++ Utf8.decodeLossy command.name ++ " error: " ++ e.message ++ "\n"))

/-! ### Pipelines -/

/-- Forks a child for a command and lists it as a job. -/
def launch [Host σ] (command : Command) (input : Nat) (pipe : Option (Nat × Nat))
    (jobClass : JobClass) : ShellM σ Unit := do
  let s ← get
  let assignment : Assignment :=
    { command := command
      jobClass := jobClass
      input := input
      pipe := pipe
      descriptors := s.descriptors
      place := s.place }
  supervise fun held => do
    let pid ← Supervisor.fork held assignment
    Supervisor.register pid jobClass

/-- Forks a child for every command.  The first one reads `input`, and each further one a pipe
that the one before it writes.  A descriptor is closed as soon as the child that needs it is
there. -/
def spawnStages [Host σ] (jobClass : JobClass) (input : Nat) : List Command → ShellM σ Unit
  | [] => close input
  | [last] => do
    releasing [input] (launch last input none jobClass)
    close input
  | command :: rest => do
    let (reader, writer) ← releasing [input] makePipe
    releasing [input, reader, writer] (launch command input (some (reader, writer)) jobClass)
    close input
    close writer
    spawnStages jobClass reader rest

/-- Runs a pipeline by children, and waits for them unless they run in the background. -/
def runForked [Host σ] (p : Pipeline) : ShellM σ Unit := do
  let input ← duplicate 0
  let previous ← releasing [input] (supervise fun held => Supervisor.block held)
  restoring previous do
    releasing [input] (supervise fun held => Supervisor.reapIfNotified held)
    spawnStages p.jobClass input p.commands
    if p.background = false then supervise fun held => Supervisor.waitForeground held

/-- Runs a pipeline. -/
def runPipeline [Host σ] (p : Pipeline) : ShellM σ Unit :=
  match p.builtin? with
  | some (b, command) => runBuiltin b command
  | none => runForked p

/-! ### Lines -/

/-- Runs pipelines in order, until one asks the shell to exit. -/
def execute [Host σ] : List Pipeline → ShellM σ Unit
  | [] => return ()
  | p :: ps => do
    runPipeline p
    if (← get).exitRequested.isSome then return ()
    execute ps

/-- What is said of a line that cannot be run. -/
def syntaxError : Bytes := utf8 "Syntax error.\n"

/-- Reads a line and runs it.  A line that cannot be run is reported and otherwise without
consequence. -/
def runLine [Host σ] (text : Bytes) : ShellM σ Unit :=
  match parse text >>= Line.validate with
  | .ok pipelines => execute pipelines
  | .error _ => say 2 syntaxError

/-- The jobs that have ended in the background since the last report. -/
def report [Host σ] : ShellM σ (List Job) :=
  supervise fun held => Supervisor.collectCompleted held

/-- The lines of a report. -/
def reportText (jobs : List Job) : Bytes :=
  jobs.flatMap fun job => utf8 (job.completionMessage ++ "\n")

end Shell

end JobShell
