/-
**How a process ends, and what a wait call says about it.**

A process ends by an exit or by a signal.  The wait call hands the end to the parent as a status
that names the process.  A status whose signal has no name cannot be decoded: the wait call fails
although the process is gone.

Main definitions:

* `JobShell.Ending` — the end of a process;
* `JobShell.WaitStatus` — the decoded status, together with the statuses of processes that have
  not ended;
* `JobShell.Ending.decode` — from the one to the other;
* `JobShell.WaitStatus.term`, `JobShell.WaitStatus.describe` — a status as a term, and in words.
-/

import JobShell.Errno
import JobShell.Signal

set_option autoImplicit false

namespace JobShell

/-- The end of a process. -/
inductive Ending where
  | exited (code : Int)
  | killed (signal : Nat)
  deriving DecidableEq, Repr, Inhabited

/-- What a wait call says about a process. -/
inductive WaitStatus where
  | exited (pid : Int) (code : Int)
  | signaled (pid : Int) (signal : Nat) (core : Bool)
  | stopped (pid : Int) (signal : Nat)
  | continued (pid : Int)
  | ptraceEvent (pid : Int) (signal : Nat) (event : Int)
  | ptraceSyscall (pid : Int)
  | stillAlive
  deriving DecidableEq, Repr, Inhabited

/-- The process that a status is about. -/
def WaitStatus.pid? : WaitStatus → Option Int
  | .exited pid _ | .signaled pid _ _ | .stopped pid _ | .continued pid
  | .ptraceEvent pid _ _ | .ptraceSyscall pid => some pid
  | .stillAlive => none

/-- The status of a process that has ended.  Only signals with a name can be decoded. -/
def Ending.decode (pid : Int) : Ending → Except Errno WaitStatus
  | .exited code => .ok (.exited pid code)
  | .killed signal =>
    if (Signal.name? signal).isSome then .ok (.signaled pid signal false)
    else .error Errno.invalid

/-- The name of a signal, or its number where it has none. -/
def Signal.label (signal : Nat) : String := (Signal.name? signal).getD (Nat.repr signal)

/-- A status as a term, with a given spelling of the process. -/
def WaitStatus.term (who : String) : WaitStatus → String
  | .exited _ code => "Exited(" ++ who ++ ", " ++ Int.repr code ++ ")"
  | .signaled _ signal core =>
    "Signaled(" ++ who ++ ", " ++ Signal.label signal ++ ", "
      ++ (if core then "true" else "false") ++ ")"
  | .stopped _ signal => "Stopped(" ++ who ++ ", " ++ Signal.label signal ++ ")"
  | .continued _ => "Continued(" ++ who ++ ")"
  | .ptraceEvent _ signal event =>
    "PtraceEvent(" ++ who ++ ", " ++ Signal.label signal ++ ", " ++ Int.repr event ++ ")"
  | .ptraceSyscall _ => "PtraceSyscall(" ++ who ++ ")"
  | .stillAlive => "StillAlive"

/-- A status in words.  Only the two ends of a process have a wording of their own; the other
statuses are written as terms. -/
def WaitStatus.describe (status : WaitStatus) : String :=
  match status with
  | .exited _ code => "exited with status " ++ Int.repr code
  | .signaled _ signal _ => "killed by signal " ++ Nat.repr signal
  | _ => status.term ("Pid(" ++ Int.repr (status.pid?.getD 0) ++ ")")

end JobShell
