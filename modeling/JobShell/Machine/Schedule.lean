/-
**Letting the processes run.**

One turn lets one process make one call.  The processes take turns in an order that belongs to the
machine, so that no statement about all machines depends on it.  When every process waits, the
clock goes on to the next time at which one wakes up; if there is none, nothing will ever happen
again.

With that the machine is a host for the shell.  The children run while the shell waits, and as many
turns as the machine's pace says between its other calls.

Main definitions:

* `JobShell.Machine.loadImage` — the program that a path leads to;
* `JobShell.Machine.step` — one call of one process;
* `JobShell.Machine.turnOnce`, `JobShell.Machine.runUntilDeath`, `JobShell.Machine.settle` — turns;
* the instance `JobShell.Host JobShell.Machine`.
-/

import JobShell.Launch
import JobShell.Machine.Calls

set_option autoImplicit false

namespace JobShell.Machine

/-! ### Programs and processes -/

/-- The interpreter that the first line of a script names, and the argument it is given. -/
def interpreter? (data : Bytes) : Option (Bytes × List Bytes) :=
  match data with
  | 35 :: 33 :: rest =>
    let isGap (c : UInt8) : Bool := c = 32 || c = 9
    let line := (rest.takeWhile (· ≠ newline)).dropWhile isGap
    let path := line.takeWhile fun c => !isGap c
    let tail := ((line.dropWhile fun c => !isGap c).dropWhile isGap).reverse.dropWhile isGap
    some (path, if tail = [] then [] else [tail.reverse])
  | _ => none

/-- Whether some process has a file open to write it. -/
def isBeingWritten (m : Machine) (n : Nat) : Bool :=
  m.processes.any fun p => p.descriptors.entries.any fun (_, file) =>
    match file with
    | .opened number => (m.openings[number]?).any fun o => o.node = n && o.writable
    | _ => false

/-- The installed program that a path leads to, and its words.  A script leads to its interpreter,
at most so many times. -/
def loadImage (m : Machine) (place : Nat) (words : List Bytes) :
    Nat → Bytes → Except Errno (Bytes × List Bytes)
  | depth, path => do
    let n ← m.files.find place path true
    match m.files.node? n with
    | some { content := .directory _ _, .. } => throw Errno.accessDenied
    | some { content := content, .. } =>
      m.files.demand n .execute
      if m.isBeingWritten n then throw Errno.textBusy
      match content with
      | .program name => return (name, words)
      | .file data =>
        match interpreter? data, depth with
        | none, _ => throw Errno.noExecFormat
        | some ([], _), _ => throw Errno.noExecFormat
        | some _, 0 => throw Errno.tooManyLinks
        | some (interpreter, argument), depth + 1 =>
          m.loadImage place (interpreter :: argument ++ path :: words.drop 1) depth interpreter
      | _ => throw Errno.accessDenied
    | none => throw Errno.noEntry

/-- How many interpreters of interpreters there may be. -/
def maxInterpreters : Nat := 5

/-- Runs another program in a process. -/
def exec (m : Machine) (p : Process) (path : Bytes) (words : List Bytes)
    (environment : Environment) : Except Errno Machine := do
  let (name, words) ← m.loadImage p.place words maxInterpreters path
  match m.programs name with
  | none => throw Errno.noExecFormat
  | some program =>
    return m.update p.pid fun p =>
      { p with
        descriptors := p.descriptors.kept
        environment := environment
        dispositions := p.dispositions.filter (·.2 = .ignore)
        caught := []
        image := some ⟨(Bytes.splitAt slash path).getLast?.getD [], words, p.descriptors.kept⟩
        phase := .running (program words environment) }

/-- Notes that a process is about to run its first program, if it is. -/
def arrive (m : Machine) (p : Process) : Machine :=
  if p.image.isNone then
    m.update p.pid fun q => { q with arrivals := q.arrivals ++ [⟨q.descriptors, q.opened⟩] }
  else m

/-- Adds a process with the next id. -/
def addProcess (m : Machine) (p : Process) : Machine :=
  { m with
    processes := m.processes ++ [{ p with pid := m.nextPid }]
    nextPid := m.nextPid + 1 }

/-- Lets a process go on, if it is still there. -/
def resume (m : Machine) (pid : Int) (rest : Prog Nat) : Machine :=
  m.update pid fun p =>
    if p.alive then { p with phase := .running rest, calls := p.calls + 1 } else p

/-- One call of a process; also says whether it got anywhere. -/
def step (m : Machine) (held : Descriptors) (p : Process) : Bool × Machine :=
  match p.phase with
  | .ended _ => (false, m)
  | .running rest =>
    if p.stopped then (false, m)
    else
      match rest with
      | .done code => (true, m.finish p.pid (.exited (code % 256 : Nat)))
      | .call (.exit code) _ => (true, m.finish p.pid (.exited (code % 256 : Nat)))
      | .call .fork next =>
        let child : Process :=
          { p with
            parent := p.pid
            phase := .running (next (.ok .child))
            caught := []
            alarm := none
            opened := []
            arrivals := [] }
        (true, (m.addProcess child).resume p.pid (next (.ok (.parent m.nextPid))))
      | .call (.exec path words environment) next =>
        let m := m.arrive p
        match m.exec p path words environment with
        | .ok m => (true, m)
        | .error errno => (true, m.resume p.pid (next errno))
      | .call c next =>
        match m.perform held p c with
        | .reply value m => (true, m.resume p.pid (next value))
        | .blocked m => (false, m)

/-! ### Turns -/

/-- The first process of a list that gets anywhere makes a call. -/
def stepFirst (m : Machine) (held : Descriptors) : List Int → Bool × Machine
  | [] => (false, m)
  | pid :: rest =>
    match m.process? pid with
    | none => stepFirst m held rest
    | some p =>
      match m.step held p with
      | (true, m) => (true, m)
      | (false, m) => stepFirst m held rest

/-- The living processes in the order in which they get their turn. -/
def candidates (m : Machine) : List Int := m.order m.turns (m.processes.filter (·.alive))

/-- The next time at which a process wakes up. -/
def nextAlarm (m : Machine) : Option Nat :=
  ((m.processes.filter fun p => p.alive && !p.stopped).filterMap (·.alarm)).min?

/-- One process makes one call, or the clock goes on; `none` if neither can happen. -/
def turnOnce (m : Machine) (held : Descriptors) : Option Machine :=
  match { m with turns := m.turns + 1 }.stepFirst held m.candidates with
  | (true, m) => some m
  | (false, m) => m.nextAlarm.map fun time => { m with clock := max m.clock time }

/-- At most so many turns. -/
def runFor (m : Machine) (held : Descriptors) : Nat → Machine
  | 0 => m
  | n + 1 =>
    match m.turnOnce held with
    | some m => m.runFor held n
    | none => m

/-- Turns until the shell's kernel has a death to be told of, at most so many. -/
def runUntilDeath (m : Machine) (held : Descriptors) :
    Nat → Except (Loss × Machine) ((Int × Ending) × Machine)
  | 0 => .error (.stuck, m)
  | n + 1 =>
    match m.shellKilled, m.deaths with
    | some signal, _ => .error (.killed signal, m)
    | none, death :: deaths => .ok (death, { m with deaths := deaths })
    | none, [] =>
      match m.turnOnce held with
      | some m => m.runUntilDeath held n
      | none => .error (.stuck, m)

/-- More turns than any run here takes. -/
def patience : Nat := 100000000

/-- Turns until nothing happens any more. -/
def settle (m : Machine) (held : Descriptors) : Machine := m.runFor held patience

/-! ### The machine as a host -/

/-- A child of the shell, before its first call. -/
def shellChild (m : Machine) (pid : Int) (a : Assignment) : Process :=
  { pid := pid
    parent := m.shellPid
    root := pid
    group := m.shellPid
    session := m.shellPid
    descriptors := a.descriptors
    place := a.place
    environment := m.environment
    dispositions :=
      [(Signal.interrupt, .ignore), (Signal.child, .handler), (Signal.pipe, .ignore)]
    childBlocked := true
    phase := .running (a.run m.environment) }

/-- Starts a child of the shell. -/
def start (m : Machine) (pid : Int) (a : Assignment) : Machine :=
  { m with
    processes := m.processes ++ [m.shellChild pid a]
    nextPid := max m.nextPid pid + 1 }

/-- Writes to an open file on behalf of the shell. -/
def shellWrite (m : Machine) (file : OpenFile) (bytes : Bytes) : Machine :=
  match file with
  | .output => { m with output := m.output ++ bytes }
  | .diagnostics => { m with diagnostics := m.diagnostics ++ bytes }
  | .pipeWriter i => m.setPipe i (m.pipe i ++ bytes)
  | .opened number =>
    match m.openings[number]? with
    | some o => (m.writeOpening number o bytes).2
    | none => m
  | .pipeReader _ => m

/-- What can be read from an open file up to its end. -/
def unread (m : Machine) : OpenFile → Bytes
  | .pipeReader i => m.pipe i
  | .opened number =>
    match m.openings[number]? with
    | some o =>
      match m.files.node? o.node with
      | some { content := .file data, .. } => data.drop o.offset
      | _ => []
    | none => []
  | _ => []

/-- Takes bytes from the front of what can be read. -/
def take (m : Machine) (file : OpenFile) (n : Nat) : Machine :=
  match file with
  | .pipeReader i => m.setPipe i ((m.pipe i).drop n)
  | .opened number =>
    match m.openings[number]? with
    | some o => m.setOpening number { o with offset := o.offset + n }
    | none => m
  | _ => m

/-- The turns between two calls of the shell, and the deaths that the kernel is told of. -/
def drift (m : Machine) (held : Descriptors) : List (Int × Ending) × Machine :=
  let m := m.runFor held (m.pace m.turns)
  (m.deaths, { m with deaths := [] })

instance : Host Machine where
  refuses _ _ := none
  newPipe := addPipe
  nextPid m := m.nextPid
  start pid a m := m.start pid a
  write file bytes m := m.shellWrite file bytes
  unread file m := m.unread file
  take file n m := m.take file n
  enter place path m := m.files.enter place path
  pathOf place m := m.files.pathOf place
  kill pid signal m := m.send m.shellPid m.shellPid pid signal
  drift held m := m.drift held
  await held m := m.runUntilDeath held patience

end JobShell.Machine
