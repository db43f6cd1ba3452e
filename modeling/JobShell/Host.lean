/-
**The system that the shell runs on.**

The shell shares the system with its children.  What they do, and when they end, is not the
shell's business: to the shell the rest of the system is a state that answers its calls and goes
on by itself between them.  The class `Host` lists what the shell asks of such a state.  Every
statement about the shell over an arbitrary host is a statement about every way in which the
children can behave.

Main definitions:

* `JobShell.SystemCall` — the calls that can fail in the shell itself;
* `JobShell.Assignment` — what a newly forked child is told to do;
* `JobShell.Loss` — why the shell does not come back from waiting;
* `JobShell.Host` — what the shell asks of the system.
-/

import JobShell.Descriptor
import JobShell.Job.Status
import JobShell.Line.Basic

set_option autoImplicit false

namespace JobShell

/-- The calls that can fail in the shell itself or in a child before it runs its program. -/
inductive SystemCall where
  | dup
  | dup2
  | close
  | pipe
  | fork
  | waitpid
  | sigprocmask
  | setsid
  deriving DecidableEq, Repr, Inhabited

/-- The name of a call in diagnostics. -/
def SystemCall.name : SystemCall → String
  | .dup => "dup"
  | .dup2 => "dup2"
  | .close => "close"
  | .pipe => "pipe"
  | .fork => "fork"
  | .waitpid => "waitpid"
  | .sigprocmask => "sigprocmask"
  | .setsid => "setsid"

/-- A call failed in the shell itself. -/
structure ResourceError where
  call : SystemCall
  errno : Errno
  deriving DecidableEq, Repr, Inhabited

/-- The wording of a failed call. -/
def ResourceError.message (e : ResourceError) : String :=
  e.call.name ++ "() failed: " ++ e.errno.text

/-- What a newly forked child is told to do, and what it has from the shell. -/
structure Assignment where
  command : Command
  jobClass : JobClass
  /-- The descriptor to read from. -/
  input : Nat
  /-- The two ends of the pipe to write to, if the child is not the last of its pipeline. -/
  pipe : Option (Nat × Nat)
  /-- The descriptors of the shell at the fork. -/
  descriptors : Descriptors
  /-- The working directory of the shell at the fork. -/
  place : Nat
  deriving DecidableEq, Repr, Inhabited

/-- Why the shell does not come back from waiting for a child. -/
inductive Loss where
  /-- No child will ever end. -/
  | stuck
  /-- A signal has ended the shell. -/
  | killed (signal : Nat)
  deriving DecidableEq, Repr, Inhabited

/-- What the shell asks of the system. -/
class Host (σ : Type) where
  /-- Whether a call of the shell fails, beyond what its own descriptors decide. -/
  refuses : SystemCall → σ → Option Errno
  /-- Makes a pipe and gives its number. -/
  newPipe : σ → Nat × σ
  /-- The process id that the next child is to have, if no unreaped child has it. -/
  nextPid : σ → Int
  /-- Starts a child. -/
  start : Int → Assignment → σ → σ
  /-- Writes to an open file on behalf of the shell. -/
  write : OpenFile → Bytes → σ → σ
  /-- What can be read from an open file up to its end. -/
  unread : OpenFile → σ → Bytes
  /-- Takes bytes from the front of what can be read. -/
  take : OpenFile → Nat → σ → σ
  /-- The directory that a path leads to from a directory. -/
  enter : Nat → Bytes → σ → Except Errno Nat
  /-- The path of a directory. -/
  pathOf : Nat → σ → Except Errno Bytes
  /-- Sends a signal; also says whether the shell is among the receivers. -/
  kill : Int → Nat → σ → Except Errno (Bool × σ)
  /-- What happens between two calls of the shell: the children that end meanwhile.  The
  descriptors are those of the shell, which keep pipes open. -/
  drift : Descriptors → σ → List (Int × Ending) × σ
  /-- Goes on until a child ends. -/
  await : Descriptors → σ → Except (Loss × σ) ((Int × Ending) × σ)

end JobShell
