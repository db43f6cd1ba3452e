/-
**Signals.**

Signals are numbers from 1 to 64.  Those up to 31 have names; the rest, the real-time signals, do
not, and a wait status that holds one cannot be decoded.

Main definitions:

* `JobShell.Signal.name?` — the name of a signal;
* `JobShell.Signal.Reaction`, `JobShell.Signal.default` — what a signal does to a process that has
  made no arrangement for it;
* `JobShell.Disposition` — such an arrangement.
-/

set_option autoImplicit false

namespace JobShell

namespace Signal

/-- The names of the signals from 1 on. -/
def names : List String :=
  ["SIGHUP", "SIGINT", "SIGQUIT", "SIGILL", "SIGTRAP", "SIGABRT", "SIGBUS", "SIGFPE", "SIGKILL",
   "SIGUSR1", "SIGSEGV", "SIGUSR2", "SIGPIPE", "SIGALRM", "SIGTERM", "SIGSTKFLT", "SIGCHLD",
   "SIGCONT", "SIGSTOP", "SIGTSTP", "SIGTTIN", "SIGTTOU", "SIGURG", "SIGXCPU", "SIGXFSZ",
   "SIGVTALRM", "SIGPROF", "SIGWINCH", "SIGIO", "SIGPWR", "SIGSYS"]

/-- The name of a signal from 1 to 31. -/
def name? : Nat → Option String
  | 0 => none
  | n + 1 => names[n]?

/-- Interrupt from the terminal. -/
def interrupt : Nat := 2
/-- The signal that no process can refuse. -/
def kill : Nat := 9
/-- Writing to a pipe that nobody reads. -/
def pipe : Nat := 13
/-- The polite request to end. -/
def terminate : Nat := 15
/-- A child has ended. -/
def child : Nat := 17
/-- The signal that no process can refuse, and that stops it. -/
def stop : Nat := 19
/-- A stopped process goes on. -/
def proceed : Nat := 18

/-- What a signal does to a process. -/
inductive Reaction where
  | ends
  | stops
  | continues
  | nothing
  deriving DecidableEq, Repr

/-- What a signal does to a process that has made no arrangement for it. -/
def default (signal : Nat) : Reaction :=
  if signal = child ∨ signal = 23 ∨ signal = 28 then .nothing
  else if signal = proceed then .continues
  else if 19 ≤ signal ∧ signal ≤ 22 then .stops
  else .ends

end Signal

/-- What a process has arranged for a signal. -/
inductive Disposition where
  | default
  | ignore
  | handler
  deriving DecidableEq, Repr, Inhabited

end JobShell
