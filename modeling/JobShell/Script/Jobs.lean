/-
**The jobs of a script.**

A job is what a script starts together: a program, a list in brackets or a pipeline.  Jobs have
numbers, under which a script can name them; a number is free again when the script has asked how
its job ended.  The newest job comes first.

Main definitions:

* `JobShell.Script.Job` — a job;
* `JobShell.Script.Jobs.claim`, `JobShell.Script.Jobs.record`, `JobShell.Script.Jobs.forget` — the
  life of a job;
* `JobShell.Script.Jobs.named` — the job that a name means, or why there is none.
-/

import JobShell.Job.Status
import JobShell.Number

set_option autoImplicit false

namespace JobShell.Script

/-- A job of a script. -/
structure Job where
  number : Nat
  /-- The processes, and how those have ended that are known to. -/
  processes : List (Int × Option Ending) := []
  /-- The script has asked how the job ended. -/
  waited : Bool := false
  deriving DecidableEq, Repr, Inhabited

namespace Job

/-- Whether all processes of a job have ended. -/
def isDone (j : Job) : Bool := !j.processes.isEmpty && j.processes.all (·.2.isSome)

/-- How the last process of a job ended. -/
def ending? (j : Job) : Option Ending := j.processes.getLast?.bind (·.2)

/-- Whether a process is one of a job. -/
def has (j : Job) (pid : Int) : Bool := j.processes.any (·.1 = pid)

/-- Takes note of the end of a process. -/
def record (j : Job) (pid : Int) (ending : Ending) : Job :=
  { j with processes := j.processes.map fun p => if p.1 = pid then (pid, some ending) else p }

end Job

/-- The jobs of a script, the newest first. -/
abbrev Jobs := List Job

namespace Jobs

/-- The job of a number. -/
def get? (js : Jobs) (number : Nat) : Option Job := js.find? (·.number = number)

/-- Forgets a job. -/
def forget (js : Jobs) (number : Nat) : Jobs := js.filter (·.number ≠ number)

/-- Changes the job of a number. -/
def modify (js : Jobs) (number : Nat) (f : Job → Job) : Jobs :=
  js.map fun j => if j.number = number then f j else j

/-- Makes a new job with the least number that no job has, or one that nobody will ask for. -/
def claim (js : Jobs) : Nat × Jobs :=
  let isFree (number : Nat) : Bool :=
    match js.get? number with
    | some j => j.isDone && j.waited
    | none => true
  let number := ((List.range (js.length + 1)).map (· + 1)).find? isFree |>.getD (js.length + 1)
  (number, { number := number } :: js.forget number)

/-- Adds a process to a job. -/
def add (js : Jobs) (number : Nat) (pid : Int) : Jobs :=
  js.modify number fun j => { j with processes := j.processes ++ [(pid, none)] }

/-- The job of a process that is not known to have ended. -/
def running? (js : Jobs) (pid : Int) : Option Job :=
  js.find? fun j => !j.isDone && j.has pid

/-- Takes note of the end of a process. -/
def record (js : Jobs) (pid : Int) (ending : Ending) : Jobs :=
  match js.running? pid with
  | some job => js.modify job.number (·.record pid ending)
  | none => js

/-- The script has asked how a job ended. -/
def markWaited (js : Jobs) (number : Nat) : Jobs :=
  js.modify number fun j => { j with waited := true }

/-! ### Names -/

/-- Why a name means no job. -/
inductive NameError where
  | noCurrent
  | noPrevious
  | noSuch
  | ambiguous
  deriving DecidableEq, Repr

/-- The wording of an error about a name. -/
def NameError.message (name : Bytes) : NameError → Bytes
  | .noCurrent => utf8 "No current job"
  | .noPrevious => utf8 "No previous job"
  | .noSuch => utf8 "No such job: " ++ name
  | .ambiguous => name ++ utf8 ": ambiguous"

/-- The job that a name means: the newest, the one before it, or that of a number. -/
def named (js : Jobs) (name : Bytes) : Except NameError Job :=
  let orElse (job : Option Job) (error : NameError) : Except NameError Job :=
    match job with
    | some j => .ok j
    | none => .error error
  match name with
  | [37] | [37, 37] | [37, 43] => orElse js.head? .noCurrent
  | [37, 45] => orElse (js.drop 1).head? .noPrevious
  | [37, 63] =>
    match js with
    | [] => .error .noSuch
    | [job] => .ok job
    | _ => .error .ambiguous
  | 37 :: number => orElse ((digits? number).bind js.get?) .noSuch
  | _ => .error .noSuch

end Jobs

end JobShell.Script
