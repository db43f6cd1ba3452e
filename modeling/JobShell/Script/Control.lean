/-
**Waiting for children, and commands about jobs.**

Whenever a script waits for one job it takes note of whatever else has ended, too.  What it learns
that way is kept until it is asked for.

Main definitions:

* `JobShell.Script.reap` — taking note of children that have ended;
* `JobShell.Script.awaitJob` — waiting for a job;
* `JobShell.Script.wait`, `JobShell.Script.listJobs`, `JobShell.Script.control` — commands about
  jobs.
-/

import JobShell.Script.Signals

set_option autoImplicit false

namespace JobShell.Script

/-! ### How children end -/

/-- The status that stands for the end of a process. -/
def statusOf : Ending → Nat
  | .exited code => code.toNat
  | .killed signal => 128 + signal

/-- What is said of a process that a signal has ended. -/
def signalText (signal : Nat) : String :=
  let names := ["Hangup", "Interrupt", "Quit", "Illegal instruction", "Trace/breakpoint trap",
    "Aborted", "Bus error", "Floating point exception", "Killed", "User defined signal 1",
    "Segmentation fault", "User defined signal 2", "Broken pipe", "Alarm clock", "Terminated",
    "Stack fault", "Child exited", "Continued", "Stopped (signal)", "Stopped",
    "Stopped (tty input)", "Stopped (tty output)", "Urgent I/O condition",
    "CPU time limit exceeded", "File size limit exceeded", "Virtual timer expired",
    "Profiling timer expired", "Window changed", "I/O possible", "Power failure",
    "Bad system call"]
  match names[signal - 1]? with
  | some name => name
  | none =>
    if 34 ≤ signal then "Real-time signal " ++ Nat.repr (signal - 34)
    else "Unknown signal " ++ Nat.repr signal

/-- What is said of a process of a job that is waited for. -/
def mentionEnding : Ending → Eval Unit
  | .killed signal => do
    if signal ≠ Signal.interrupt ∧ signal ≠ Signal.pipe then
      mention (utf8 (signalText signal ++ "\n"))
  | .exited _ => return ()

/-- Whether a job is known to have ended, or there is none of that number. -/
def isOverJob (number : Nat) : Eval Bool := do
  return (((← get).jobs.get? number).map (·.isDone)).getD true

/-- Takes note of children that have ended: waits in the given way for the first one, or until a
job is done if one is given, and takes those that there are after that.  Says whether no signal has
come in between.  The number bounds the children. -/
def reap (awaited : Option Nat) : Nat → Waiting → Eval Bool
  | 0, _ => return true
  | n + 1, how => do
    match ← ask (.wait none how) with
    | .error _ => return true
    | .ok none =>
      if how = .alert then
        let _ ← reap awaited n .polling
        return false
      else return true
    | .ok (some (pid, ending)) =>
      let number := ((← get).jobs.running? pid).map (·.number)
      modify fun s => { s with jobs := s.jobs.record pid ending }
      if number.isSome ∧ number = awaited then mentionEnding ending
      let goesOn ← match awaited with
        | some job => (! ·) <$> isOverJob job
        | none => pure false
      reap awaited n (if goesOn then how else .polling)

/-- Takes note of the children that have ended by now, if there can be any. -/
def reapEnded : Eval Unit := do
  if (← get).jobs.any fun j => !j.isDone then
    let _ ← reap none Prog.patience .polling

/-- Waits for a job in the given way; says whether no signal has come in between. -/
def waitFor (number : Nat) (how : Waiting) : Eval Bool := do
  reap (some number) Prog.patience (if ← isOverJob number then .polling else how)

/-- The status of a job that is done. -/
def statusOfJob (number : Nat) : Eval Nat := do
  return ((((← get).jobs.get? number).bind (·.ending?)).map statusOf).getD 0

/-- Waits for a job that nobody will ask for again. -/
def awaitJob (number : Nat) : Eval Unit := do
  let _ ← waitFor number .patient
  setStatus (← statusOfJob number)
  modify fun s => { s with jobs := s.jobs.forget number }

/-! ### Commands -/

/-- The job that a name means. -/
def demandJob (name target : Bytes) : Eval Job := do
  match (← get).jobs.named target with
  | .ok job => return job
  | .error mistake => failIn name (mistake.message target)

/-- Waits until everything has ended, or a signal comes.  The number bounds the children. -/
def waitForAll : Nat → Eval Unit
  | 0 => return ()
  | n + 1 => do
    match (← get).jobs.find? fun j => !j.isDone with
    | none =>
      modify fun s => { s with jobs := s.jobs.map fun j => { j with waited := true } }
      setStatus 0
    | some _ =>
      if ← reap none Prog.patience .alert then waitForAll n else setInterrupted
where
  /-- The status of waiting that a signal has ended. -/
  setInterrupted : Eval Unit := do
    let signals : List Nat ← ask .caught
    setStatus (128 + (signals.getLast?).getD 0)

/-- Waits for jobs by their processes or names; the status is that of the last one. -/
def waitForEach (name : Bytes) : List Bytes → Eval Unit
  | [] => return ()
  | target :: rest => do
    let job ← if target.head? = some 37 then some <$> demandJob name target
      else do
        let pid ← demandNumber name target
        pure ((← get).jobs.find? fun j => j.processes.getLast?.map (·.1) = some (Int.ofNat pid))
    match job with
    | none => waitForEach name rest
    | some job =>
      if ← waitFor job.number .alert then
        modify fun s => { s with jobs := s.jobs.markWaited job.number }
        setStatus (← statusOfJob job.number)
        waitForEach name rest
      else waitForAll.setInterrupted

/-- Waits for jobs, or for all of them. -/
def wait (name : Bytes) (words : List Bytes) : Eval Unit := do
  let r ← readOptions name "" words
  if r.operands = [] then waitForAll Prog.patience
  else
    setStatus 127
    waitForEach name r.operands

/-- What is said of the state of a job. -/
def Job.stateText (j : Job) : String :=
  match j.isDone, j.ending? with
  | true, some (.killed signal) => signalText signal
  | true, some (.exited code) =>
    if code.toNat = 0 then "Done" else "Done(" ++ Nat.repr code.toNat ++ ")"
  | _, _ => "Running"

/-- The mark of a job: the newest one, and the one before it. -/
def Jobs.mark (js : Jobs) (j : Job) : String :=
  if (js.head?.map (·.number)) = some j.number then "+"
  else if ((js.drop 1).head?.map (·.number)) = some j.number then "-" else " "

/-- A text with blanks after it up to a column, one at least. -/
def padTo (column : Nat) (text : String) : String :=
  text ++ String.ofList (List.replicate (max 1 (column - text.length)) ' ')

/-- The column at which the commands of jobs stand. -/
def commandColumn : Nat := 33

/-- What is said of a job, with its processes if that is asked for. -/
def Jobs.text (js : Jobs) (processes : Bool) (j : Job) : String :=
  let front := "[" ++ Nat.repr j.number ++ "] " ++ js.mark j ++ " "
  let pids := j.processes.map fun p => Int.repr p.1
  if processes then
    let first := padTo commandColumn (front ++ pids.headD "" ++ " " ++ j.stateText)
    let others := (pids.drop 1).map fun pid =>
      " |\n" ++ padTo commandColumn (String.ofList (List.replicate front.length ' ') ++ pid ++ " ")
    first ++ String.join others ++ "\n"
  else
    padTo commandColumn (front ++ j.stateText) ++ String.join ((pids.drop 1).map fun _ => " | ")
      ++ "\n"

/-- How much is said of jobs. -/
inductive JobDetail where
  | state
  | processes
  | leader
  deriving DecidableEq, Repr

/-- Says how a job is doing.  One that is done is forgotten after that. -/
def sayJob (name : Bytes) (detail : JobDetail) (number : Nat) : Eval Unit := do
  let jobs := (← get).jobs
  match jobs.get? number with
  | none => return ()
  | some job =>
    match detail with
    | .leader =>
      let pid := (job.processes.head?.map (·.1)).getD 0
      say name (Programs.ofInt pid ++ [newline])
    | detail =>
      say name (utf8 (jobs.text (detail = .processes) job))
      if job.isDone then modify fun s => { s with jobs := s.jobs.forget number }

/-- Says how jobs are doing. -/
def listJobs (name : Bytes) (words : List Bytes) : Eval Unit := do
  let r ← readOptions name "lp" words
  let detail : JobDetail := match r.letters.getLast? with
    | some 'l' => .processes
    | some _ => .leader
    | none => .state
  setStatus 0
  if r.operands = [] then
    reapEnded
    for job in (← get).jobs do
      sayJob name detail job.number
  else
    for target in r.operands do
      sayJob name detail (← demandJob name target).number

/-- Refuses to bring a job to the front or to the back, which takes a terminal. -/
def control (name : Bytes) (words : List Bytes) : Eval Unit := do
  let r ← readOptions name "" words
  let _ ← demandJob name (r.operands.headD (utf8 "%"))
  let shown := r.operands.headD (utf8 "(null)")
  failIn name (utf8 "job " ++ shown ++ utf8 " not created under job control")

end JobShell.Script
