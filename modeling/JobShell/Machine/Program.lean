/-
**Programs as trees of calls.**

A program is what it asks of the system: it is either done, or it makes a call and goes on in a
way that depends on the reply.  The type knows nothing of what a program computes in between, so a
statement about all programs is a statement about everything a process can do.

A program that repeats itself is cut off after a number of rounds that no run here reaches.

Main definitions:

* `JobShell.Call`, `JobShell.Call.Reply` — what a process can ask, and what it is told;
* `JobShell.Prog` — a program;
* `JobShell.Prog.bind`, `JobShell.Prog.repeatWhile` — one program after another, and repetition.
-/

import JobShell.Job.Status
import JobShell.Machine.Change

set_option autoImplicit false

namespace JobShell

/-- Variables with their values. -/
abbrev Environment := List (Bytes × Bytes)

/-- What is known of a file without opening it. -/
structure FileStatus where
  number : Nat
  content : FileSystem.Content
  mode : Nat
  /-- How many names the file has. -/
  links : Nat := 1
  deriving DecidableEq, Repr, Inhabited

/-- On which side of a fork a process finds itself. -/
inductive ForkSide where
  | parent (child : Int)
  | child
  deriving DecidableEq, Repr, Inhabited

/-- How long a process waits for a child to end. -/
inductive Waiting where
  | patient
  /-- Not at all. -/
  | polling
  /-- Until a signal is caught. -/
  | alert
  /-- For so many milliseconds. -/
  | within (milliseconds : Nat)
  deriving DecidableEq, Repr, Inhabited

/-- What a position in a file is counted from. -/
inductive Whence where
  | start
  | here
  | finish
  deriving DecidableEq, Repr, Inhabited

/-- What a process can ask of the system. -/
inductive Call where
  | openPath (path : Bytes) (how : OpenMode) (mode : Nat)
  | close (fd : Nat)
  | dup2 (old new : Nat)
  /-- Another descriptor for an open file, with a number from `least` on. -/
  | duplicate (fd least : Nat)
  | read (fd count : Nat)
  | write (fd : Nat) (bytes : Bytes)
  /-- Moves the position in a file, and tells it. -/
  | seek (fd : Nat) (whence : Whence) (distance : Int)
  | pipe
  | fork
  /-- Waits for a child, or for any; there may be none yet that has ended. -/
  | wait (child : Option Int) (how : Waiting)
  /-- Runs another program in this process; there is a reply only if that fails. -/
  | exec (path : Bytes) (words : List Bytes) (environment : Environment)
  | exit (code : Nat)
  | processId
  | parentId
  | kill (pid : Int) (signal : Nat)
  | setsid
  | dispose (signal : Nat) (disposition : Disposition)
  | unblockChild
  /-- The signals with a handler that have arrived since they were last taken. -/
  | caught
  | takeCaught
  | changeDirectory (path : Bytes)
  | workingDirectory
  /-- Sets the permissions that new files do not get. -/
  | setMask (mask : Nat)
  | alter (change : FileSystem.Change)
  /-- Gives the file of a descriptor another size. -/
  | resize (fd size : Nat)
  /-- Whether something is permitted. -/
  | access (path : Bytes) (permission : FileSystem.Permission)
  | status (path : Bytes) (follow : Bool)
  /-- What a descriptor stands for: a file of the tree, or nothing that has a place there. -/
  | statusOf (fd : Nat)
  | list (path : Bytes)
  | readLink (path : Bytes)
  /-- Waits for a number of milliseconds. -/
  | sleep (milliseconds : Nat)
  deriving Repr

/-- What a process is told. -/
def Call.Reply : Call → Type
  | .openPath _ _ _ | .duplicate _ _ | .write _ _ | .seek _ _ _ => Except Errno Nat
  | .close _ | .dup2 _ _ | .kill _ _ | .setsid | .dispose _ _ | .unblockChild
  | .changeDirectory _ | .alter _ | .resize _ _ | .access _ _ => Except Errno Unit
  | .read _ _ | .workingDirectory | .readLink _ => Except Errno Bytes
  | .pipe => Except Errno (Nat × Nat)
  | .fork => Except Errno ForkSide
  | .wait _ _ => Except Errno (Option (Int × Ending))
  | .exec _ _ _ => Errno
  | .exit _ | .sleep _ => Unit
  | .processId | .parentId => Int
  | .setMask _ => Nat
  | .caught | .takeCaught => List Nat
  | .status _ _ => Except Errno FileStatus
  | .statusOf _ => Except Errno (Option FileStatus)
  | .list _ => Except Errno (List Bytes)

/-- A program that gives a value when it is done. -/
inductive Prog (α : Type) where
  | done (value : α)
  | call (c : Call) (next : c.Reply → Prog α)

namespace Prog

variable {α β : Type}

/-- One program after another. -/
def bind : Prog α → (α → Prog β) → Prog β
  | .done a, f => f a
  | .call c next, f => .call c fun reply => bind (next reply) f

instance : Monad Prog where
  pure := .done
  bind := bind

/-- A call by itself. -/
def ask (c : Call) : Prog c.Reply := .call c .done

/-- How often a program repeats itself at most. -/
def patience : Nat := 10000000

/-- Repeats a program on a state until it gives a value, at most so many times. -/
def repeatFor {s : Type} (body : s → Prog (s ⊕ α)) (otherwise : s → α) : Nat → s → Prog α
  | 0, state => .done (otherwise state)
  | n + 1, state => bind (body state) fun
    | .inl state => repeatFor body otherwise n state
    | .inr value => .done value

/-- Repeats a program on a state until it gives a value. -/
def repeatWhile {s : Type} (body : s → Prog (s ⊕ α)) (otherwise : s → α) (state : s) : Prog α :=
  repeatFor body otherwise patience state

/-- Ends the process. -/
def exit (code : Nat) [Inhabited α] : Prog α :=
  bind (ask (.exit code)) fun _ => .done default

/-- Writes everything, in as many calls as it takes. -/
def writeAll (fd : Nat) (bytes : Bytes) : Prog (Except Errno Unit) :=
  repeatWhile
    (fun rest =>
      if rest = [] then .done (.inr (.ok ()))
      else bind (ask (.write fd rest)) fun
        | .ok n => .done (.inl (rest.drop n))
        | .error errno => .done (.inr (.error errno)))
    (fun _ => .ok ()) bytes

end Prog

end JobShell
