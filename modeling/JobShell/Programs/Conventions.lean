/-
**What the installed programs do alike.**

Every program refuses options that it does not have, and says so if its output cannot be written.
Both are added to a program from outside: the first before it starts, the second by watching the
calls that it makes.

Main definitions:

* `JobShell.Programs.onFailedWrite` — a program that goes another way when its output fails;
* `JobShell.Programs.Installed` — a program with its options and its wording;
* `JobShell.Programs.Installed.program` — the program as it is installed.
-/

import JobShell.Machine.Process
import JobShell.Programs.Request

set_option autoImplicit false

namespace JobShell.Programs

/-- A program that goes another way when its output cannot be written. -/
def onFailedWrite {α : Type} (otherwise : Errno → Prog α) : Prog α → Prog α
  | .done a => .done a
  | .call (.write fd bytes) next =>
    .call (.write fd bytes) fun reply =>
      match reply with
      | .ok n => onFailedWrite otherwise (next (.ok n))
      | .error errno =>
        if fd = 1 then otherwise errno else onFailedWrite otherwise (next (.error errno))
  | .call c next => .call c fun reply => onFailedWrite otherwise (next reply)

/-- A program with its options and its wording. -/
structure Installed where
  name : String
  run : Request → Prog Nat
  /-- The letters of its options; a program without them reads its words on its own. -/
  letters : Option String := none
  /-- The names of its options. -/
  names : List String := []
  /-- No option follows an operand. -/
  strict : Bool := false
  /-- What is written after the refusal of a word. -/
  usage : String := ""
  /-- The exit code in trouble. -/
  trouble : Nat := 1
  /-- What is said when the output cannot be written; nothing if the program does that itself. -/
  failure : Option String := some "write error"

/-- The request that words make, or why they are refused. -/
def Installed.request (p : Installed) (words : List Bytes) (environment : Environment) :
    Except Refusal Request :=
  match p.letters with
  | some letters => Request.read (.ofText letters p.names) p.strict words environment
  | none => .ok (Request.ofWords words environment)

/-- The program as it is installed. -/
def Installed.program (p : Installed) : Program := fun words environment =>
  match p.request words environment, p.failure with
  | .error refusal, _ => do
    let r := Request.ofWords words environment
    r.complain refusal.message
    let _ ← emit 2 (utf8 p.usage)
    r.tryHelp
    return p.trouble
  | .ok r, none => p.run r
  | .ok r, some failure =>
    onFailedWrite (fun errno => do
      r.complainOf (utf8 failure) errno
      return p.trouble) (p.run r)

end JobShell.Programs
