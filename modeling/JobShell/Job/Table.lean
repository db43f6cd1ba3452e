/-
**The job table.**

The table lists the children that run and the children that have ended and wait to be reported.
A child that the shell has waited for in the foreground is forgotten at once; every other one that
ends, whether it was listed or not, is reported later.

Main definitions:

* `JobShell.Job`, `JobShell.JobState` — one child as the table sees it;
* `JobShell.JobTable` — the two lists;
* `JobShell.JobTable.register`, `JobShell.JobTable.record`, `JobShell.JobTable.takeCompleted` — how
  they change;
* `JobShell.Job.completionMessage` — the line of a report.
-/

import JobShell.Job.Status
import JobShell.Line.Basic

set_option autoImplicit false

namespace JobShell

/-- The states of a job.  A job goes through them in this order. -/
inductive JobState where
  | created
  | running
  | terminated (status : WaitStatus)
  | reaped (status : WaitStatus)
  deriving DecidableEq, Repr, Inhabited

/-- One child. -/
structure Job where
  pid : Int
  jobClass : JobClass
  state : JobState
  deriving DecidableEq, Repr, Inhabited

/-- A state as a term, with a given spelling of the process. -/
def JobState.term (who : String) : JobState → String
  | .created => "Created"
  | .running => "Running"
  | .terminated status => "Terminated(" ++ status.term who ++ ")"
  | .reaped status => "Reaped(" ++ status.term who ++ ")"

/-- The line that reports a job, with a given spelling of the process. -/
def Job.messageNaming (who : String) (job : Job) : String :=
  let what :=
    match job.state with
    | .terminated status | .reaped status => status.describe
    | .created | .running => "terminated"
  "Background process " ++ who ++ " terminated. (" ++ what ++ ")"

/-- The line that reports a job. -/
def Job.completionMessage (job : Job) : String := job.messageNaming (Int.repr job.pid)

/-- Takes the element at `i` out of a list; the last one moves to its place. -/
def swapRemove {α : Type} (i : Nat) (xs : List α) : List α :=
  match xs.getLast? with
  | none => []
  | some last => (xs.set i last).dropLast

/-- The children that run, and those that have ended and are still to be reported. -/
structure JobTable where
  running : List Job := []
  completed : List Job := []
  deriving DecidableEq, Repr, Inhabited

namespace JobTable

/-- The class under which a process is listed as running. -/
def classOf? (t : JobTable) (pid : Int) : Option JobClass :=
  (t.running.find? (·.pid = pid)).map (·.jobClass)

/-- Lists a process as running.  A process that is listed already cannot be listed again. -/
def register (pid : Int) (jobClass : JobClass) (t : JobTable) : Option JobTable :=
  if t.running.any (·.pid = pid) then none
  else some { t with running := t.running ++ [⟨pid, jobClass, .running⟩] }

/-- Whether a foreground job is listed as running. -/
def hasForeground (t : JobTable) : Bool := t.running.any (·.jobClass = .foreground)

/-- Takes a process out of the running list: its entry, or a new background one if it had none. -/
def release (pid : Int) (t : JobTable) : Job × JobTable :=
  match t.running.findIdx? (·.pid = pid) with
  | some i =>
    ((t.running[i]?).getD ⟨pid, .background, .created⟩,
      { t with running := swapRemove i t.running })
  | none => (⟨pid, .background, .created⟩, t)

/-- Books a status.  A foreground job is done with and handed back; any other goes to the end of
the completed list. -/
def record (status : WaitStatus) (t : JobTable) : Option Job × JobTable :=
  match status.pid? with
  | none => (none, t)
  | some pid =>
    let (job, t) := t.release pid
    match job.jobClass with
    | .foreground => (some { job with state := .reaped status }, t)
    | .background =>
      (none, { t with completed := t.completed ++ [{ job with state := .terminated status }] })

/-- A completed job as it is handed out. -/
def handOut (job : Job) : Job :=
  match job.state with
  | .terminated status => { job with state := .reaped status }
  | _ => job

/-- Hands out the completed jobs and empties their list. -/
def takeCompleted (t : JobTable) : List Job × JobTable :=
  (t.completed.map handOut, { t with completed := [] })

end JobTable

end JobShell
