/-
**Descriptors.**

A process reaches its open files through numbers.  Its table says which number stands for which
open file; two numbers, and two processes, may share one.  A new descriptor gets the least number
that is free, and a table holds only so many.

Main definitions:

* `JobShell.OpenFile` — what a descriptor stands for;
* `JobShell.Descriptors` — the table of one process;
* `JobShell.Descriptors.assign`, `JobShell.Descriptors.close`, `JobShell.Descriptors.allocate?` —
  how it changes;
* `JobShell.Descriptors.reserve?`, `JobShell.Descriptors.kept` — descriptors that a process keeps to
  itself, and the table without them.
-/

set_option autoImplicit false

namespace JobShell

/-- What a descriptor stands for. -/
inductive OpenFile where
  /-- The end of a pipe that is read. -/
  | pipeReader (pipe : Nat)
  /-- The end of a pipe that is written. -/
  | pipeWriter (pipe : Nat)
  /-- The stream that the shell was given for its output. -/
  | output
  /-- The stream that the shell was given for its diagnostics. -/
  | diagnostics
  /-- A file opened by its path. -/
  | opened (number : Nat)
  deriving DecidableEq, Repr, Inhabited

/-- The open descriptors of a process. -/
structure Descriptors where
  entries : List (Nat × OpenFile) := []
  /-- How many descriptors may be open at a time. -/
  capacity : Nat := 1024
  /-- The numbers that are freed when the process runs another program.  Until then they stand for
  the same open files. -/
  fleeting : List Nat := []
  deriving DecidableEq, Repr, Inhabited

namespace Descriptors

/-- The open file behind a number. -/
def file? (d : Descriptors) (fd : Nat) : Option OpenFile := d.entries.lookup fd

/-- Whether a number is in use. -/
def isOpen (d : Descriptors) (fd : Nat) : Bool := (d.file? fd).isSome

/-- Whether some number stands for the open file. -/
def holds (d : Descriptors) (file : OpenFile) : Bool := d.entries.any (·.2 = file)

/-- How many more descriptors can be opened. -/
def room (d : Descriptors) : Nat := d.capacity - d.entries.length

/-- The least number from `start` on that is not in use. -/
def leastFree (d : Descriptors) (start : Nat) : Nat :=
  let candidates := (List.range (d.entries.length + 1)).map (start + ·)
  (candidates.find? fun fd => !d.isOpen fd).getD (start + d.entries.length)

/-- Lets a number stand for an open file, whatever it stood for before. -/
def assign (d : Descriptors) (fd : Nat) (file : OpenFile) : Descriptors :=
  { d with entries := (fd, file) :: d.entries.filter (·.1 ≠ fd) }

/-- Frees a number. -/
def close (d : Descriptors) (fd : Nat) : Descriptors :=
  { d with entries := d.entries.filter (·.1 ≠ fd) }

/-- Gives an open file the least number from `start` on that is free, if the table has room. -/
def allocate? (d : Descriptors) (file : OpenFile) (start : Nat) :
    Option (Nat × Descriptors) :=
  if d.room = 0 then none
  else some (d.leastFree start, { d with entries := (d.leastFree start, file) :: d.entries })

/-- Gives an open file the least number from `start` on that is free, if the table has room, and
keeps the number from programs that the process runs. -/
def reserve? (d : Descriptors) (file : OpenFile) (start : Nat) : Option Descriptors :=
  (d.allocate? file start).map fun (fd, d) => { d with fleeting := fd :: d.fleeting }

/-- The table with which the next program of the process starts. -/
def kept (d : Descriptors) : Descriptors :=
  { d with
    entries := d.entries.filter fun entry => !d.fleeting.contains entry.1
    fleeting := [] }

end Descriptors

end JobShell
