/-
**The machine: its processes, files and pipes.**

A machine has a file tree, pipes, files that are open with a position in them, the two streams that
the shell was given, a clock, and processes.  A process is a program together with what the system
keeps for it.  The shell itself is not among the processes; what the machine needs to know of it
is which descriptors it holds.

Main definitions:

* `JobShell.Process` — a process;
* `JobShell.PathOpening`, `JobShell.Arrival` — what a process has opened, and what it has when its
  program is to start;
* `JobShell.Opening` — an open file of the tree;
* `JobShell.Machine` — the machine;
* `JobShell.Machine.isRead`, `JobShell.Machine.isWritten` — whether a pipe still has a reader or a
  writer;
* `JobShell.Machine.finish`, `JobShell.Machine.deliver` — the end of a process, and signals.
-/

import JobShell.Descriptor
import JobShell.Machine.Program

set_option autoImplicit false

namespace JobShell

/-- What a process is doing. -/
inductive Phase where
  | running (rest : Prog Nat)
  | ended (ending : Ending)

/-- A program as it was started: the name of its file, its words, and its descriptors at that
moment. -/
structure Image where
  name : Bytes
  words : List Bytes
  descriptors : Descriptors
  deriving DecidableEq, Repr, Inhabited

/-- A file that a process has opened by its path. -/
structure PathOpening where
  path : Bytes
  how : OpenMode
  file : OpenFile
  deriving DecidableEq, Repr

/-- What a process has when it is about to run its first program: its descriptors, and the files
that it has opened by their paths so far. -/
structure Arrival where
  descriptors : Descriptors
  opened : List PathOpening
  deriving DecidableEq, Repr

/-- A process. -/
structure Process where
  pid : Int
  parent : Int
  /-- The child of the shell that it descends from. -/
  root : Int
  group : Int
  session : Int
  descriptors : Descriptors
  /-- The working directory. -/
  place : Nat
  /-- The permissions that new files do not get. -/
  mask : Nat := 0
  environment : Environment := []
  dispositions : List (Nat × Disposition) := []
  /-- The signals with a handler that have arrived, until the program asks. -/
  caught : List Nat := []
  /-- The signal of children is blocked. -/
  childBlocked : Bool := false
  /-- The program that it runs, once it has been started. -/
  image : Option Image := none
  phase : Phase
  stopped : Bool := false
  /-- The end has been taken note of by the parent. -/
  collected : Bool := false
  /-- When the process wakes up. -/
  alarm : Option Nat := none
  /-- How many calls the process has made. -/
  calls : Nat := 0
  /-- The pipe of a fifo that the process waits to open, and whether to read it. -/
  knocking : Option (Nat × Bool) := none
  /-- Somebody has opened the other end of that fifo. -/
  admitted : Bool := false
  /-- The files that it has opened by their paths, the earliest first. -/
  opened : List PathOpening := []
  /-- Its attempts to run its first program. -/
  arrivals : List Arrival := []

namespace Process

/-- Whether a process has not ended. -/
def alive (p : Process) : Bool :=
  match p.phase with
  | .running _ => true
  | .ended _ => false

/-- What a process has arranged for a signal.  Two signals cannot be arranged for. -/
def disposition (p : Process) (signal : Nat) : Disposition :=
  if signal = Signal.kill ∨ signal = Signal.stop then .default
  else (p.dispositions.lookup signal).getD .default

/-- A signal with a handler has arrived. -/
def notice (p : Process) (signal : Nat) : Process :=
  if p.caught.contains signal then p else { p with caught := p.caught ++ [signal] }

/-- How many calls a process makes in a row before those that have made fewer. -/
def quantum : Nat := 256

/-- How long a process has to wait for its turn: one that has not started its program yet goes
first. -/
def rank (p : Process) : Nat := if p.image.isNone then 0 else 1 + p.calls / quantum

/-- The ids of processes in the order in which they get their turn. -/
def inTurn (ps : List Process) : List Int :=
  (ps.mergeSort fun p q => p.rank ≤ q.rank).map (·.pid)

end Process

/-- An open file of the tree. -/
structure Opening where
  node : Nat
  offset : Nat := 0
  readable : Bool
  writable : Bool
  /-- Everything is written at the end. -/
  append : Bool := false
  deriving DecidableEq, Repr, Inhabited

/-- A program that is installed: what it does with its words and its environment. -/
abbrev Program := List Bytes → Environment → Prog Nat

/-- The machine. -/
structure Machine where
  files : FileSystem
  /-- What has been written to each pipe and not yet read. -/
  pipes : List Bytes := []
  openings : List Opening := []
  /-- What has been written to the output that the shell was given. -/
  output : Bytes := []
  /-- What has been written to the diagnostics that the shell was given. -/
  diagnostics : Bytes := []
  processes : List Process := []
  programs : Bytes → Option Program
  environment : Environment := []
  /-- The time in milliseconds. -/
  clock : Nat := 0
  shellPid : Int := 100
  nextPid : Int := 101
  /-- The children of the shell that have ended, until the shell's kernel is told. -/
  deaths : List (Int × Ending) := []
  /-- The signal by which a process has ended the shell. -/
  shellKilled : Option Nat := none
  /-- How many times some process has been given its turn. -/
  turns : Nat := 0
  /-- Which process gets a turn if it can use it, else which one after it. -/
  order : Nat → List Process → List Int := fun _ => Process.inTurn
  /-- How many turns there are between two calls of the shell. -/
  pace : Nat → Nat := fun _ => 0

namespace Machine

/-- How many bytes a pipe holds. -/
def pipeCapacity : Nat := 65536

/-- Writes of at most so many bytes go into a pipe in one piece. -/
def pipeUnit : Nat := 4096

/-- What has been written to a pipe and not yet read. -/
def pipe (m : Machine) (i : Nat) : Bytes := (m.pipes[i]?).getD []

/-- Replaces what is in a pipe. -/
def setPipe (m : Machine) (i : Nat) (bytes : Bytes) : Machine :=
  { m with pipes := m.pipes.set i bytes }

/-- Adds a pipe. -/
def addPipe (m : Machine) : Nat × Machine :=
  (m.pipes.length, { m with pipes := m.pipes ++ [[]] })

/-- Adds an open file. -/
def addOpening (m : Machine) (o : Opening) : Nat × Machine :=
  (m.openings.length, { m with openings := m.openings ++ [o] })

/-- Whether some process, or the shell, holds an open file. -/
def isHeld (m : Machine) (held : Descriptors) (file : OpenFile) : Bool :=
  held.holds file || m.processes.any fun p => p.descriptors.holds file

/-- Whether a pipe still has a reader. -/
def isRead (m : Machine) (held : Descriptors) (i : Nat) : Bool := m.isHeld held (.pipeReader i)

/-- Whether a pipe still has a writer. -/
def isWritten (m : Machine) (held : Descriptors) (i : Nat) : Bool := m.isHeld held (.pipeWriter i)

/-- The process of an id. -/
def process? (m : Machine) (pid : Int) : Option Process := m.processes.find? (·.pid = pid)

/-- Changes the process of an id. -/
def update (m : Machine) (pid : Int) (f : Process → Process) : Machine :=
  { m with processes := m.processes.map fun p => if p.pid = pid then f p else p }

/-- The process that inherits children without a parent. -/
def initPid : Int := 1

/-- Ends a process: its descriptors are closed, and its children are inherited.  The shell's kernel
will be told of a child of the shell. -/
def finish (m : Machine) (pid : Int) (ending : Ending) : Machine :=
  match m.process? pid with
  | none => m
  | some p =>
    if p.alive then
      let ended (q : Process) : Process :=
        { q with
          phase := .ended ending
          descriptors := {}
          alarm := none
          knocking := none }
      let inherited (q : Process) : Process :=
        if q.parent = pid then { q with parent := initPid }
        else if q.pid = p.parent ∧ q.disposition Signal.child = .handler then q.notice Signal.child
        else q
      let m := { m with processes := m.processes.map inherited }.update pid ended
      if p.parent = m.shellPid then { m with deaths := m.deaths ++ [(pid, ending)] } else m
    else m

/-- Delivers a signal to a process. -/
def deliver (m : Machine) (signal : Nat) (p : Process) : Machine :=
  match p.disposition signal with
  | .ignore => m
  | .handler => m.update p.pid fun p => p.notice signal
  | .default =>
    match Signal.default signal with
    | .ends => m.finish p.pid (.killed signal)
    | .stops => m.update p.pid fun p => { p with stopped := true }
    | .continues => m.update p.pid fun p => { p with stopped := false }
    | .nothing => m

/-- The signals that the shell does not mind: those that it ignores or has a handler for. -/
def shellMinds (signal : Nat) : Bool :=
  signal ≠ Signal.interrupt && signal ≠ Signal.pipe && signal ≠ Signal.child

/-- A process sends a signal to the shell, of which the first one that ends it matters. -/
def signalShell (m : Machine) (signal : Nat) : Machine :=
  if m.shellKilled = none ∧ shellMinds signal ∧ Signal.default signal = .ends then
    { m with shellKilled := some signal }
  else m

/-- Whether a process is meant when a signal is sent to `target` by a process of a group. -/
def isTarget (target senderGroup sender : Int) (pid group : Int) : Bool :=
  if 0 < target then pid = target
  else if target = 0 then group = senderGroup
  else if target = -1 then pid ≠ sender
  else group = -target

/-- Sends a signal on behalf of a process; also says whether the shell is meant. -/
def send (m : Machine) (sender senderGroup target : Int) (signal : Nat) :
    Except Errno (Bool × Machine) :=
  if 64 < signal then .error Errno.invalid
  else
    let meant := m.processes.filter fun p =>
      !p.collected && isTarget target senderGroup sender p.pid p.group
    let shell := isTarget target senderGroup sender m.shellPid m.shellPid
    if meant.isEmpty ∧ shell = false then .error Errno.noProcess
    else if signal = 0 then .ok (false, m)
    else .ok (shell, (meant.filter (·.alive)).foldl (fun m p => m.deliver signal p) m)

end Machine

end JobShell
