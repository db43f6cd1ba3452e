/-
**A launch watched from inside.**

The steps between a fork and a program can be carried out by a process whose program cannot be
run.  What the process is left with shows what the steps have done: its signals, where its output
goes, and what its input holds.

Main definitions:

* `JobShell.Machine.carryOut` — a program of one process, with nobody else running;
* `JobShell.Rehearsal.Setting` — the descriptors that the process is given;
* `JobShell.Rehearsal.Findings` — what the process is left with;
* `JobShell.Rehearsal.run` — the rehearsal.
-/

import JobShell.Installation

set_option autoImplicit false

namespace JobShell

/-- Carries out a program in a process while nobody else runs; `none` if the process would wait, be
replaced, or fork. -/
def Machine.carryOut {α : Type} (held : Descriptors) (pid : Int) (m : Machine) :
    Prog α → Option (α × Machine)
  | .done a => some (a, m)
  | .call c next =>
    (m.process? pid).bind fun p =>
      match c, next with
      | .fork, _ => none
      | .exit _, _ => none
      | .exec path words environment, next =>
        match m.exec p path words environment with
        | .ok _ => none
        | .error errno => m.carryOut held pid (next errno)
      | c, next =>
        match m.perform held p c with
        | .reply value m => m.carryOut held pid (next value)
        | .blocked _ => none

namespace Rehearsal

/-- Where the process is told to read from. -/
inductive Source where
  /-- A pipe with the input. -/
  | fresh
  /-- The same pipe, which is its input already. -/
  | standard
  /-- A number that is not open. -/
  | missing
  deriving DecidableEq, Repr, Inhabited

/-- Where the process is told to write to. -/
inductive Sink where
  | standard
  | pipe
  /-- A pipe whose reading end, or writing end, is a number that is not open. -/
  | pipeWithoutReader
  | pipeWithoutWriter
  deriving DecidableEq, Repr, Inhabited

/-- The descriptors that the process is given, and its files. -/
structure Setting where
  entries : List (Bytes × Installation.Entry) := []
  input : Bytes := []
  source : Source := .fresh
  sink : Sink := .standard
  deriving Repr, Inhabited

/-- What the process is left with. -/
structure Findings where
  error : LaunchError
  /-- The signal of children is still blocked. -/
  blocked : Bool
  /-- What is arranged for interrupts, children and broken pipes. -/
  dispositions : List Disposition
  /-- What can be read from the input; `none` if reading fails. -/
  input : Option Bytes
  /-- What reached the output of the shell. -/
  output : Bytes
  /-- What reached the pipe, if there is one. -/
  piped : Option Bytes

/-- The process, which leads its own group. -/
def pid : Int := 100

/-- The text that is written to see where the output goes. -/
def probe : Bytes := utf8 "probe\n"

/-- A number that is never open. -/
def closedNumber : Nat := 900

/-- The descriptor of the input, where it is not the standard one. -/
def inputNumber : Nat := 3

/-- The descriptors of the pipe: the one that reads it and the one that writes it. -/
def pipeNumbers : Nat × Nat := (4, 5)

/-- What the process is told, without a command. -/
def Setting.assignment (s : Setting) (command : Command) (jobClass : JobClass) : Assignment :=
  let (reader, writer) := pipeNumbers
  { command := command
    jobClass := jobClass
    input := match s.source with
      | .fresh => inputNumber
      | .standard => 0
      | .missing => closedNumber
    pipe := match s.sink with
      | .standard => none
      | .pipe => some (reader, writer)
      | .pipeWithoutReader => some (closedNumber, writer)
      | .pipeWithoutWriter => some (reader, closedNumber)
    descriptors := {}
    place := Installation.workingPlace }

/-- The descriptors of the process, given an empty pipe, the input and the pipe. -/
def Setting.descriptors (s : Setting) (empty input pipe : Nat) : Descriptors :=
  let (reader, writer) := pipeNumbers
  let own := [(1, OpenFile.output), (2, .diagnostics)]
  let sources := match s.source with
    | .fresh => [(0, OpenFile.pipeReader empty), (inputNumber, .pipeReader input)]
    | .standard => [(0, .pipeReader input)]
    | .missing => [(0, .pipeReader empty)]
  let sinks := match s.sink with
    | .standard => []
    | .pipe => [(reader, OpenFile.pipeReader pipe), (writer, .pipeWriter pipe)]
    | .pipeWithoutReader => [(writer, .pipeWriter pipe)]
    | .pipeWithoutWriter => [(reader, .pipeReader pipe)]
  { entries := own ++ sources ++ sinks }

/-- What the process does: it launches its command, writes the probe, and reads its input. -/
def script (a : Assignment) (environment : Environment) :
    Prog (LaunchError × Except Errno Bytes) := do
  let error ← a.launch environment
  Programs.say probe
  let input ← Programs.readAll 0
  return (error, input)

/-- Carries out a launch, and looks at what it leaves; there are no findings if the program is run
after all. -/
def run (s : Setting) (command : Command) (jobClass : JobClass) : Option Findings × Machine :=
  let environment := Installation.environment (some Installation.workingPath)
  let m := Installation.machine s.entries environment
  let (empty, m) := m.addPipe
  let (input, m) := m.addPipe
  let (pipe, m) := m.addPipe
  let a := s.assignment command jobClass
  let d := s.descriptors empty input pipe
  let p := { m.shellChild pid { a with descriptors := d } with group := pid, session := pid }
  let m := { m.setPipe input s.input with processes := [p] }
  -- Whoever rehearses keeps the reading end of the pipe to see what arrives.
  let held : Descriptors := { entries := [(0, .pipeReader pipe)] }
  match m.carryOut held pid (script a environment) with
  | none => (none, m)
  | some ((error, read), m) =>
    let findings := (m.process? pid).map fun p =>
      { error := error
        blocked := p.childBlocked
        dispositions :=
          [Signal.interrupt, Signal.child, Signal.pipe].map p.disposition
        input := read.toOption
        output := m.output
        piped := if s.sink = .standard then none else some (m.pipe pipe) }
    (findings, m)

end Rehearsal

end JobShell
